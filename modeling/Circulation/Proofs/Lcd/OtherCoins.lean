import Circulation.Proofs.Claim.OtherCoins
import Circulation.Proofs.Json.Stability
import Circulation.Proofs.Lcd.Answer

/-!
# Coins of other denominations

What the community pool holds of a denomination is the amount of the first coin of the denomination, and
the other coins of the pool need only be coins. Together with locks and claims, which look for a coin in
the same way, this means that nothing that is counted for a denomination depends on any other.

## Main definitions

* `Circulation.Lcd.PoolEdit` — an edit of the body of the community pool that concerns coins of other
  denominations, or nothing that is read.

## Main results

* `Circulation.Json.Record.toOption_decoder_field_map` — what is made of the value of a field.
* `Circulation.Lcd.toOption_poolOf_edited` — what the pool holds does not change with such edits.
* `Circulation.Coin.others_do_not_count` — coins of other denominations count nowhere.
-/

namespace Circulation

namespace Json.Record

variable {α β : Type}

/-- What is made of a field can be made of it within the record that it is. -/
theorem toOption_decoder_field_map (key : String) (otherNames : List String) (d : Decoder α)
    (default? : Form → Option α) (f : α → β) (name : String) (n : Node) :
    ((field key otherNames (fun n => (d n).map f) fun form => (default? form).map f).decoder name
        n).toOption =
      ((field key otherNames d default?).decoder name n).toOption.map f := by
  have hfields : (field key otherNames (fun n => (d n).map f) fun form => (default? form).map f).fields =
      (field key otherNames d default?).fields := by
    have hcheck : (fun n => ((d n).map f).map fun _ => ()) = fun n => (d n).map fun _ => () := by
      funext n
      cases d n <;> rfl
    simp only [field, hcheck]
  have hbuild : ∀ p : Present,
      ((field key otherNames (fun n => (d n).map f) fun form => (default? form).map f).build p).toOption =
        ((field key otherNames d default?).build p).toOption.map f := by
    intro p
    simp only [field]
    cases p.node? key with
    | some n => exact toOption_map _ _
    | none => cases default? p.form <;> rfl
  cases n with
  | object span members =>
    rw [decoder_object, decoder_object, toOption_bind, toOption_bind, Option.map_bind, presentAmong,
      presentAmong, hfields]
    exact congrArg _ (funext fun _ => hbuild _)
  | array span items =>
    rw [toOption_decoder_array, toOption_decoder_array, Option.map_bind, presentAt, presentAt, hfields]
    refine congrArg _ (funext fun _ => ?_)
    rw [Function.comp_apply, hbuild, Option.bind_map, Option.map_bind]
    refine congrArg _ (funext fun a => ?_)
    rw [Function.comp_apply, Function.comp_apply]
    split_ifs <;> rfl
  | _ =>
    exact (Decoder.toOption_wrongType _ _).trans
      (congrArg (Option.map f) (Decoder.toOption_wrongType _ _).symm)

end Json.Record

namespace Lcd

open Json

/-- The decoder of a coin of the community pool. -/
def coinDecoder : Decoder Coin :=
  (Coin.mk <$> Record.required "denom" Decoder.string
    <*> Record.required "amount" Decoder.string).decoder "DecCoin"

/-- Edits of the body of the community pool: coins of other denominations are put into the pool, taken
out of it or changed, and members that are not read come, go and change places. -/
abbrev PoolEdit (denom : String) : Tree → Tree → Prop :=
  RecordEdit [{ name := "pool", value := CoinsAgree denom }]

variable {denom : String}

/-- A coin of another denomination is read as one. -/
theorem exists_coin_of_isOtherCoin {t : Tree} (h : IsOtherCoin denom t) :
    ∃ c, (coinDecoder t.node).toOption = some c ∧ c.IsOther denom := by
  obtain @⟨ms, other, amount, hdenom, hne, hamount, -⟩ := h
  have hfields : HasField "denom" (· = .string other) (.ofJson (.object ms)) ∧
      HasField "amount" (· = .string amount) (.ofJson (.object ms)) :=
    ⟨.of_has hdenom rfl, .of_has hamount rfl⟩
  have hcoin : coinDecoder (Tree.ofJson (.object ms)).node = .ok ⟨other, amount⟩ :=
    hfields.1.decoder_pair hfields.2 (by decide) (fun _ => Decoder.string_of_eq)
      (fun _ => Decoder.string_of_eq) Coin.mk "DecCoin"
  exact ⟨⟨other, amount⟩, by rw [hcoin]; rfl, hne⟩

/-- The amount text of a denomination in an array of coins. -/
def amountTextDecoder (denom : String) : Decoder (Option String) :=
  fun n => (Decoder.list coinDecoder n).map (Coin.amountTextOf? · denom)

theorem respects_amountTextDecoder : (amountTextDecoder denom).Respects (CoinsAgree denom) := by
  rintro _ _ ⟨hcoins⟩
  have hread : ∀ ts : List Tree, (amountTextDecoder denom (Tree.array ts).node).toOption =
      (ts.mapM fun t => (coinDecoder t.node).toOption).map (Coin.amountTextOf? · denom) := by
    intro ts
    rw [amountTextDecoder, toOption_map, Json.Tree.node, Json.Tree.nodes_eq_map, Decoder.list,
      toOption_mapM, List.mapM_map]
    rfl
  rw [hread, hread]
  exact map_eq_of_rel (hcoins.rel_mapM fun _ => exists_coin_of_isOtherCoin)
    fun _ _ => Coin.amountTextOf?_congr

/-- The amount text of a denomination in the pool does not change with edits. -/
theorem respects_poolEdit :
    ((Record.field "pool" [] (amountTextDecoder denom) fun _ => some none).decoder
      "CommunityPool").Respects (PoolEdit denom) := by
  let e : FieldEdits := { name := "pool", value := CoinsAgree denom }
  have hfield : (Record.field e.name e.otherNames (amountTextDecoder denom)
      fun _ => some none).Respects [e] :=
    Record.respects_field respects_amountTextDecoder nofun
  exact hfield.decoder (by simp [e, Record.field, Field.AreApart, Field.names]) _

/-- **What the pool holds of a denomination** does not change with edits that concern others. -/
theorem toOption_poolOf_edited {t t' : Tree} {text text' : String}
    (hedit : Relation.EqvGen (PoolEdit denom) t t') (htext : t.IsText text)
    (htext' : t'.IsText text') : (poolOf denom text).toOption = (poolOf denom text').toOption := by
  have hread : ∀ {t : Tree} {text : String}, t.IsText text → (poolOf denom text).toOption =
      (((Record.field "pool" [] (amountTextDecoder denom) fun _ => some none).decoder
        "CommunityPool" t.node).toOption).map (·.getD "0") := by
    intro t text htext
    have hopen : (open? poolDecoder text).toOption = (poolDecoder t.node).toOption := by
      rw [open?, toOption_mapError, ChainState.sees_poolDecoder.ofText (by decide) htext]
    have hpool : ((Record.field "pool" [] (amountTextDecoder denom) fun _ => some none).decoder
        "CommunityPool" t.node).toOption = (poolDecoder t.node).toOption.map (Coin.amountTextOf? · denom) :=
      Record.toOption_decoder_field_map "pool" [] (Decoder.list coinDecoder) (fun _ => some [])
        (Coin.amountTextOf? · denom) "CommunityPool" t.node
    rw [poolOf, toOption_bind, hopen, hpool, Option.map_map]
    exact Option.map_eq_bind.symm
  rw [hread htext, hread htext', respects_poolEdit.eqvGen t t' hedit]

end Lcd

/-- **Coins of other denominations do not count.** Whatever such coins are put in, taken out or changed,
also with amounts that are no numerals: a lock holds the same portion of the denomination at every
instant, with the same end date or the same error, the bodies of claim lists denote the same records, and
those of the community pool the same amount. -/
theorem Coin.others_do_not_count (denom : String) :
    (∀ (lock lock' : AccountLock) (now : Instant), lock.AgreesBeside denom lock' →
      lock.lockedAt denom now = lock'.lockedAt denom now) ∧
    (∀ (t t' : Json.Tree) (text text' : String), ClaimRecord.BodiesAgree denom t t' →
      t.IsText text → t'.IsText text' →
      (ClaimRecord.listOfText denom text).toOption = (ClaimRecord.listOfText denom text').toOption) ∧
    ∀ (t t' : Json.Tree) (text text' : String), Relation.EqvGen (Lcd.PoolEdit denom) t t' →
      t.IsText text → t'.IsText text' →
      (Lcd.poolOf denom text).toOption = (Lcd.poolOf denom text').toOption :=
  ⟨fun _ _ now h => h.lockedAt_eq now, fun _ _ _ _ h => h.toOption_listOfText,
    fun _ _ _ _ => Lcd.toOption_poolOf_edited⟩

/-- Coins of another denomination are taken out, put in and changed in a periodic lock, and taken out
of a claim list and of a pool. Most of their amounts are no numerals. -/
theorem Coin.others_do_not_count_unreadable :
    let own : Coin := ⟨"ulume", "7"⟩
    let other (amount : String) : Coin := ⟨"uatom", amount⟩
    let lock (granted vested locked : List Coin) : AccountLock :=
      ⟨"PeriodicVestingAccount", .periodic, granted, some ⟨0, 0⟩, none, [⟨5, vested⟩], [⟨9, locked⟩]⟩
    let coin (denom amount : String) : Json :=
      .object [("denom", .string denom), ("amount", .string amount)]
    let claims (coins : List Json) : Json :=
      .object [("list", .array [.object [("addr", .string "a"), ("balance", .array coins)]])]
    let pool (coins : List Json) : Json := .object [("pool", .array coins)]
    (lock [other "many", own] [own] [other "1", own]).lockedAt "ulume" ⟨1, 0⟩ =
        (lock [own] [own, other "few"] [other "", own]).lockedAt "ulume" ⟨1, 0⟩ ∧
      (ClaimRecord.listOfText "ulume"
          (Json.compact (claims [coin "uatom" "many", coin "ulume" "7"]))).toOption =
        (ClaimRecord.listOfText "ulume" (Json.compact (claims [coin "ulume" "7"]))).toOption ∧
      (Lcd.poolOf "ulume" (Json.compact (pool [coin "uatom" "many", coin "ulume" "7"]))).toOption =
        (Lcd.poolOf "ulume" (Json.compact (pool [coin "ulume" "7"]))).toOption := by
  intro own other lock coin claims pool
  have hcoin : ∀ amount, Coin.IsOther "ulume" (other amount) := by simp [other, Coin.IsOther]
  have hlocks : (lock [other "many", own] [own] [other "1", own]).AgreesBeside "ulume"
      (lock [own] [own, other "few"] [other "", own]) :=
    { kind := rfl
      startTime := rfl
      endTime := rfl
      grantedCoins := .remove (hcoin "many") [] [own]
      vestingPeriods := .cons ⟨rfl, .insert (hcoin "few") [own] []⟩ .nil
      lockupPeriods := .cons ⟨rfl, .change (hcoin "1") (hcoin "") [] [own]⟩ .nil }
  have hother : Json.IsOtherCoin "ulume" (.ofJson (coin "uatom" "many")) :=
    .object (show Json.Has _ _ (some _) from rfl) (by decide) (show Json.Has _ _ (some _) from rfl)
      (by decide)
  have hitems : Json.CoinsAgree "ulume" (.ofJson (.array [coin "uatom" "many", coin "ulume" "7"]))
      (.ofJson (.array [coin "ulume" "7"])) :=
    .array (.remove hother [] _)
  have hclaims : ClaimRecord.BodiesAgree "ulume"
      (.ofJson (claims [coin "uatom" "many", coin "ulume" "7"]))
      (.ofJson (claims [coin "ulume" "7"])) :=
    .object (.cons (.value (.array (.cons
      (.object (.cons (.same _) (.cons (.value ⟨rfl, hitems⟩) .nil))) .nil))) .nil)
  have hpool : Lcd.PoolEdit "ulume" (.ofJson (pool [coin "uatom" "many", coin "ulume" "7"]))
      (.ofJson (pool [coin "ulume" "7"])) :=
    .members (.value (List.mem_singleton_self _) (List.mem_singleton_self _) hitems)
  have hintegers : ∀ coins, Json.HaveIntegers coins → (claims coins).HasIntegers ∧
      (pool coins).HasIntegers := by
    intro coins h
    simp [claims, pool, Json.HasIntegers, Json.HaveIntegers, Json.MembersHaveIntegers, h]
  have htwo := hintegers [coin "uatom" "many", coin "ulume" "7"]
    (by simp [coin, Json.HasIntegers, Json.HaveIntegers, Json.MembersHaveIntegers])
  have hone := hintegers [coin "ulume" "7"]
    (by simp [coin, Json.HasIntegers, Json.HaveIntegers, Json.MembersHaveIntegers])
  obtain ⟨hlock, hlist, hshare⟩ := Coin.others_do_not_count "ulume"
  exact ⟨hlock _ _ _ hlocks,
    hlist _ _ _ _ hclaims (Json.isText_compact htwo.1) (Json.isText_compact hone.1),
    hshare _ _ _ _ (.rel _ _ hpool) (Json.isText_compact htwo.2) (Json.isText_compact hone.2)⟩

end Circulation
