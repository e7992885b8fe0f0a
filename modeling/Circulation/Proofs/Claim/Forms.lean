import Circulation.Claim.Listing
import Circulation.Proofs.Instant.Forms
import Circulation.Proofs.Json.Outline
import Circulation.Proofs.Json.Sorting

/-!
# The forms of a claim list

The chain states claims in two shapes and under several keys, times as texts or as numbers, and amounts
among the coins of a balance. All forms of a list are decoded as the same claims in the same order,
whose times are the same instants. Items without an address and members that are none of the list make
no difference.

## Main definitions

* `Circulation.ClaimRecord.StatesBalance`, `Circulation.ClaimRecord.IsStatedBy`,
  `Circulation.ClaimRecord.ItemsState`, `Circulation.ClaimRecord.ListIsStatedBy` — the forms of an
  amount, of a claim, of the items of a list and of a list.
* `Circulation.ClaimRecord.IsSameAs` — claims with the same address, instant and amount.

## Main results

* `Circulation.ClaimRecord.timeOf_of_isStatedBy?` — a time is decoded as its instant.
* `Circulation.ClaimRecord.listOfText_of_isStatedBy` — claims are decoded from any text of any of their
  forms.
-/

namespace Circulation.ClaimRecord

open Json

/-! ### Forms -/

/-- A coin of another denomination. -/
inductive IsOtherCoin (denom : String) : Json → Prop
  | object {ms : List (String × Json)} {other : String} (hdenom : Has ms "denom" (some (.string other)))
      (hne : other ≠ denom) : IsOtherCoin denom (.object ms)

/-- The forms of an amount of a denomination: a coin with the digits of the amount, before which there
are coins of other denominations only, or no such coin if there is no amount. -/
inductive StatesBalance (denom : String) : Option Nat → Option Json → Prop
  | absent : StatesBalance denom none none
  | others {coins : List Json} (h : ∀ c ∈ coins, IsOtherCoin denom c) :
      StatesBalance denom none (some (.array coins))
  | amount {before after : List Json} {ms : List (String × Json)} {digits : String}
      (hbefore : ∀ c ∈ before, IsOtherCoin denom c) (hdenom : Has ms "denom" (some (.string denom)))
      (hamount : Has ms "amount" (some (.string digits))) (hne : digits ≠ "")
      (hdigits : ∀ d ∈ digits.toList, d.isDigit = true) :
      StatesBalance denom (some (Numeral.ofDigits digits.toList))
        (some (.array (before ++ .object ms :: after)))

/-- The forms of a claim: an address that is not empty, a positive time and an amount, where it has
them. -/
inductive IsStatedBy (shape : Shape) (denom : String) (record : ClaimRecord) : Json → Prop
  | object {ms : List (String × Json)} {time? balance? : Option Json}
      (haddress : HasOneOf ms shape.addressKeys (some (.string record.address)))
      (hne : record.address ≠ "") (htime : HasOneOf ms shape.timeKeys time?)
      (hbalance : Has ms "balance" balance?) (htimeForm : Instant.IsStatedBy? record.time time?)
      (hpositive : ∀ t ∈ record.time, 0 < t.nanos)
      (hamount : StatesBalance denom record.amount balance?) :
      IsStatedBy shape denom record (.object ms)

/-- The values that are no address: all but the texts that are not empty. -/
def IsNoAddress (v : Json) : Prop :=
  ∀ s, v = .string s → s = ""

/-- The items that lack an address: those that are no objects, and objects without an address under any
of the keys. Of several members with one key the last one counts. -/
inductive LacksAddress (shape : Shape) : Json → Prop
  | noObject {v : Json} (h : ∀ ms, v ≠ .object ms) : LacksAddress shape v
  | object {ms : List (String × Json)}
      (h : ∀ key ∈ shape.addressKeys, ∀ m, (ms.filter fun m => m.1 == key).getLast? = some m →
        IsNoAddress m.2) :
      LacksAddress shape (.object ms)

/-- The forms of the items of a list, between which there may be items that lack an address. -/
inductive ItemsState (shape : Shape) (denom : String) : List ClaimRecord → List Json → Prop
  | none : ItemsState shape denom [] []
  | claim {record : ClaimRecord} {records : List ClaimRecord} {v : Json} {vs : List Json}
      (h : record.IsStatedBy shape denom v) (hrest : ItemsState shape denom records vs) :
      ItemsState shape denom (record :: records) (v :: vs)
  | other {records : List ClaimRecord} {v : Json} {vs : List Json} (h : LacksAddress shape v)
      (hrest : ItemsState shape denom records vs) : ItemsState shape denom records (v :: vs)

/-- The forms of a list of claims. -/
inductive ListIsStatedBy (denom : String) (records : List ClaimRecord) : Json → Prop
  | claims {ms : List (String × Json)} {vs : List Json} (h : Has ms "claims" (some (.array vs)))
      (hitems : ItemsState .claims denom records vs) : ListIsStatedBy denom records (.object ms)
  | general {ms : List (String × Json)} {vs : List Json} (hclaims : Has ms "claims" none)
      (h : HasOneOf ms generalKeys (some (.array vs))) (hitems : ItemsState .general denom records vs) :
      ListIsStatedBy denom records (.object ms)

/-- The claims agree in everything but the clocks of their times. -/
structure IsSameAs (record record' : ClaimRecord) : Prop where
  address : record.address = record'.address
  time : record.time.map (·.nanos) = record'.time.map (·.nanos)
  amount : record.amount = record'.amount

/-! ### Times -/

/-- **A time is decoded** from any of its forms as the same instant, if it is positive. -/
theorem timeOf_of_isStatedBy? {t? : Option Instant} {v? : Option Json}
    (h : Instant.IsStatedBy? t? v?) (hpositive : ∀ t ∈ t?, 0 < t.nanos) :
    ((v?.map sorted).bind timeOf).map (·.nanos) = t?.map (·.nanos) := by
  cases h with
  | unset h => cases h <;> rfl
  | @set t v h =>
    cases h with
    | @shown u s hnanos h =>
      show (timeOf (.string s)).map (·.nanos) = some t.nanos
      simp only [timeOf, h.parse, Option.map_some, hnanos]
    | @seconds n _ hn hv =>
      have hpos : 0 < n := by
        have hnanos := hpositive t rfl
        rw [hn.nanos, Instant.nanosPerSecond] at hnanos
        omega
      cases hv with
      | @text s hs =>
        obtain ⟨why, hwhy⟩ := Instant.exists_parse_eq_error (hs.trimChars_eq.symm ▸ hs.integer?)
        show (timeOf (.string s)).map (·.nanos) = some t.nanos
        simp only [timeOf, hwhy, hn.ofUnixText hs]
        rfl
      | number =>
        show (timeOf (.number (.int n))).map (·.nanos) = some t.nanos
        simp only [timeOf, Number.toInt64, if_pos hn.fitsInt64, if_pos hpos, hn.ofUnixSeconds?]
        rfl

/-! ### Amounts -/

/-- The denomination of a sorted coin. -/
def denomOf (coin : Json) : Option String :=
  (coin.member? "denom").bind Json.string?

theorem IsOtherCoin.denomOf_ne {denom : String} {coin : Json} (h : IsOtherCoin denom coin) :
    denomOf coin.sorted ≠ some denom := by
  cases h with
  | object hdenom hne =>
    rw [denomOf, hdenom.member?_sorted]
    exact fun h => hne (Option.some.inj h)

theorem parse_of_digits {s : String} (hne : s ≠ "") (hdigits : ∀ d ∈ s.toList, d.isDigit = true) :
    Amount.parse s = .ok (Numeral.ofDigits s.toList) := by
  have htrim : Text.trimChars s.toList = s.toList :=
    Text.trimChars_of_forall_not_isBlank fun d hd => Instant.isBlank_of_isDigit (hdigits d hd)
  have hnatural : Numeral.natural? s.toList = some (Numeral.ofDigits s.toList) :=
    Numeral.natural?_of_digits (fun h => hne (String.toList_eq_nil_iff.mp h)) hdigits
  unfold Amount.parse
  simp only [htrim, hnatural]

/-- Among coins of other denominations there is none of the denomination. -/
theorem find?_of_others {denom : String} {coins : List Json} (h : ∀ c ∈ coins, IsOtherCoin denom c) :
    (coins.map sorted).find? (fun c => denomOf c == some denom) = none := by
  refine List.find?_eq_none.mpr fun c hc => ?_
  obtain ⟨coin, hcoin, rfl⟩ := List.mem_map.mp hc
  simpa using (h coin hcoin).denomOf_ne

/-- An amount is decoded from any of its forms. -/
theorem balanceOf_of_statesBalance {denom : String} {ms : List (String × Json)} {amount : Option Nat}
    {balance? : Option Json} (hbalance : Has ms "balance" balance?)
    (h : StatesBalance denom amount balance?) : balanceOf (Json.object ms).sorted denom = amount := by
  have hcoins : ∀ coins, balance? = some (.array coins) → balanceOf (Json.object ms).sorted denom =
      ((coins.map sorted).find? fun c => denomOf c == some denom).bind fun coin =>
        ((coin.member? "amount").bind Json.string?).bind fun text =>
          if text = "" then none else (Amount.parse text).toOption := by
    rintro coins rfl
    rw [balanceOf, hbalance.member?_sorted]
    simp only [Option.map_some, Option.bind_eq_bind, Option.bind_some, array?_sorted, Option.bind_assoc]
    rfl
  cases h with
  | absent =>
    rw [balanceOf, hbalance.member?_sorted]
    rfl
  | others hothers =>
    rw [hcoins _ rfl, find?_of_others hothers]
    rfl
  | amount hbefore hdenom hamount hne hdigits =>
    rename_i before after ms' digits
    have hdenom : denomOf (Json.object ms').sorted = some denom := by
      rw [denomOf, hdenom.member?_sorted]
      rfl
    have hfound : ((before ++ .object ms' :: after).map sorted).find?
        (fun c => denomOf c == some denom) = some (Json.object ms').sorted := by
      rw [List.map_append, List.find?_append, find?_of_others hbefore, List.map_cons,
        List.find?_cons_of_pos (by simp [hdenom])]
      rfl
    rw [hcoins _ rfl, hfound, Option.bind_some, hamount.member?_sorted]
    show (if digits = "" then none else (Amount.parse digits).toOption) = _
    rw [if_neg hne, parse_of_digits hne hdigits]
    rfl

/-! ### Items and lists -/

/-- A claim is decoded from any of its forms. -/
theorem IsStatedBy.exists_ofItem? {shape : Shape} {denom : String} {record : ClaimRecord} {v : Json}
    (h : record.IsStatedBy shape denom v) :
    ∃ decoded, ofItem? shape denom v.sorted = some decoded ∧ decoded.IsSameAs record := by
  cases h with
  | @object ms time? balance? haddress hne htime hbalance htimeForm hpositive hamount =>
    have haddress := haddress.findSome?_sorted Json.string?
    have htime := htime.findSome?_sorted some
    simp only [Option.bind_fun_some] at htime
    refine ⟨⟨record.address, (time?.map sorted).bind timeOf, record.amount⟩, ?_, rfl,
      timeOf_of_isStatedBy? htimeForm hpositive, rfl⟩
    rw [ofItem?, haddress, htime, balanceOf_of_statesBalance hbalance hamount]
    show (if record.address = "" then none else some _) = some _
    rw [if_neg hne]

theorem eq_string_of_string?_sorted {v : Json} {s : String} (h : v.sorted.string? = some s) :
    v = .string s := by
  cases v with
  | string t => exact congrArg Json.string (Option.some.inj h)
  | _ => exact nomatch h

/-- A text that an item without an address has under one of the keys is empty. -/
theorem LacksAddress.eq_empty {shape : Shape} {v : Json} (h : LacksAddress shape v) {key address : String}
    (hkey : key ∈ shape.addressKeys)
    (haddress : (v.sorted.member? key).bind Json.string? = some address) : address = "" := by
  cases h with
  | noObject h =>
    cases v with
    | object ms => exact absurd rfl (h ms)
    | _ => exact nomatch haddress
  | @object ms h =>
    rw [member?_sorted_object] at haddress
    cases hlast : (ms.filter fun m => m.1 == key).getLast? with
    | none =>
      rw [hlast] at haddress
      exact nomatch haddress
    | some m =>
      rw [hlast] at haddress
      exact h key hkey m hlast address (eq_string_of_string?_sorted haddress)

/-- An item without an address is no claim. -/
theorem ofItem?_eq_none {shape : Shape} {denom : String} {v : Json} (h : LacksAddress shape v) :
    ofItem? shape denom v.sorted = none := by
  unfold ofItem?
  cases haddress : shape.addressKeys.findSome? fun key => (v.sorted.member? key).bind Json.string? with
  | none => rfl
  | some address =>
    obtain ⟨key, hkey, hfound⟩ := List.exists_of_findSome?_eq_some haddress
    exact if_pos (h.eq_empty hkey hfound)

/-- The claims of items are decoded in their order. -/
theorem ItemsState.forall₂ {shape : Shape} {denom : String} {records : List ClaimRecord}
    {vs : List Json} (h : ItemsState shape denom records vs) :
    List.Forall₂ IsSameAs ((vs.map sorted).filterMap (ofItem? shape denom)) records := by
  induction h with
  | none => exact .nil
  | claim h _ ih =>
    obtain ⟨decoded, hdecoded, hsame⟩ := h.exists_ofItem?
    rw [List.map_cons, List.filterMap_cons_some hdecoded]
    exact .cons hsame ih
  | other h _ ih =>
    rw [List.map_cons, List.filterMap_cons_none (ofItem?_eq_none h)]
    exact ih

/-- The claims of a list are decoded from any of its forms. -/
theorem listOfJson_of_isStatedBy {denom : String} {records : List ClaimRecord} {v : Json}
    (h : ListIsStatedBy denom records v) :
    List.Forall₂ IsSameAs (listOfJson denom v.sorted) records := by
  cases h with
  | claims h hitems =>
    rw [listOfJson, h.member?_sorted, Option.map_some, Option.bind_some, array?_sorted]
    exact hitems.forall₂
  | general hclaims h hitems =>
    have hlist := h.findSome?_sorted some
    simp only [Option.bind_fun_some] at hlist
    rw [listOfJson, hclaims.member?_sorted, hlist, Option.map_some, Option.bind_some, array?_sorted]
    exact hitems.forall₂

/-- **Claims are decoded** from any text of any of the forms of their list, in their order. -/
theorem listOfText_of_isStatedBy {denom : String} {records : List ClaimRecord} {v : Json}
    (h : ListIsStatedBy denom records v) (hdepth : (Tree.ofJson v).depth < depthLimit) {text : String}
    (htext : (Tree.ofJson v).IsText text) :
    ∃ decoded, listOfText denom text = .ok decoded ∧ List.Forall₂ IsSameAs decoded records := by
  refine ⟨_, ?_, listOfJson_of_isStatedBy h⟩
  rw [listOfText, parse_of_isText hdepth htext]
  rfl

/-- A list of two claims with items between them that have no address, the times of which are shown an
hour ahead of UTC and left unset. -/
theorem listOfText_of_isStatedBy_pair :
    let records : List ClaimRecord := [⟨"a", some ⟨5000000000, 0⟩, some 7⟩, ⟨"b", none, none⟩]
    let v : Json := .object [("page", .null), ("list", .array [
      .object [("time", .string "1970-01-01T01:00:05+01:00"), ("addr", .string "a"),
        ("balance", .array [.object [("denom", .string "uatom"), ("amount", .string "9")],
          .object [("denom", .string "ulume"), ("amount", .string "7")]])],
      .object [("note", .bool true)], .null, .object [("address", .number (.int 5))],
      .object [("destAddress", .string "b"), ("claim_time", .string "0")]])]
    ListIsStatedBy "ulume" records v ∧ ∃ decoded, listOfText "ulume" (compact v) = .ok decoded ∧
      List.Forall₂ IsSameAs decoded records := by
  intro records v
  have htime : Instant.IsStatedBy ⟨5000000000, 0⟩ (.string "1970-01-01T01:00:05+01:00") :=
    .shown (u := ⟨5000000000, 3600⟩) rfl (Instant.isShownBy_of_toRfc3339? (by decide +kernel))
  have hatom : IsOtherCoin "ulume" (.object [("denom", .string "uatom"), ("amount", .string "9")]) :=
    .object rfl (by decide)
  have hdenom : Has [("denom", .string "ulume"), ("amount", .string "7")] "denom"
      (some (.string "ulume")) := rfl
  have hamount : Has [("denom", .string "ulume"), ("amount", .string "7")] "amount"
      (some (.string "7")) := rfl
  have hbalance : StatesBalance "ulume" (some (Numeral.ofDigits "7".toList))
      (some (.array ([.object [("denom", .string "uatom"), ("amount", .string "9")]] ++
        [.object [("denom", .string "ulume"), ("amount", .string "7")]]))) :=
    .amount (List.forall_mem_singleton.mpr hatom) hdenom hamount (by decide)
      (List.forall_mem_singleton.mpr rfl)
  have hfirst : IsStatedBy .general "ulume" ⟨"a", some ⟨5000000000, 0⟩, some 7⟩
      (.object [("time", .string "1970-01-01T01:00:05+01:00"), ("addr", .string "a"),
        ("balance", .array [.object [("denom", .string "uatom"), ("amount", .string "9")],
          .object [("denom", .string "ulume"), ("amount", .string "7")]])]) :=
    .object ⟨"addr", by decide, rfl, by simp [Shape.general, Has]⟩ (by decide)
      ⟨"time", by decide, show Has _ _ (some _) from rfl, by simp [Shape.general, Has]⟩
      (show Has _ _ (some _) from rfl) (.set htime) (by simp) hbalance
  have hsecond : IsStatedBy .general "ulume" ⟨"b", none, none⟩
      (.object [("destAddress", .string "b"), ("claim_time", .string "0")]) :=
    .object ⟨"destAddress", by decide, rfl, by simp [Shape.general, Has]⟩ (by decide)
      ⟨"claim_time", by decide, show Has _ _ (some _) from rfl, by simp [Shape.general, Has]⟩
      (show Has _ _ none from rfl) (.unset .zeroText) nofun .absent
  have hlone (key : String) {value : Json} (hvalue : IsNoAddress value) :
      LacksAddress .general (.object [(key, value)]) := by
    refine .object fun _ _ m hm => ?_
    obtain rfl := List.mem_singleton.mp (List.mem_of_mem_filter (List.mem_of_getLast? hm))
    exact hvalue
  have hform : ListIsStatedBy "ulume" records v :=
    .general rfl ⟨"list", by decide, show Has _ _ (some _) from rfl, by simp [generalKeys, Has]⟩
      (.claim hfirst (.other (hlone "note" nofun) (.other (.noObject nofun)
        (.other (hlone "address" nofun) (.claim hsecond .none)))))
  have hintegers : v.HasIntegers := by
    simp [v, HasIntegers, HaveIntegers, MembersHaveIntegers, Number.IsInteger, Number.wordLimit]
  exact ⟨hform, listOfText_of_isStatedBy hform (by decide) (isText_compact hintegers)⟩

/-- Three texts that are not decoded as the claims that they state: one whose time has no year that UTC
supports, one with a number that is too large for a value, and one with a value that is nested too
deeply. -/
theorem not_listOfText_unrepresentable :
    (listOfText "ulume"
        "\x7b\"claims\":[\x7b\"destAddress\":\"a\",\"claimTime\":\"253402303800\"\x7d]\x7d").toOption =
      some [⟨"a", none, none⟩] ∧
    (listOfText "ulume" "\x7b\"claims\":[\x7b\"destAddress\":\"a\"\x7d],\"note\":1e999\x7d").toOption =
      none ∧
    (listOfText "ulume" ("\x7b\"claims\":[\x7b\"destAddress\":\"a\"\x7d],\"note\":" ++
      String.ofList (List.replicate 128 '[' ++ List.replicate 128 ']') ++ "\x7d")).toOption = none := by
  decide +kernel

end Circulation.ClaimRecord
