import Circulation.Proofs.Claim.Shadows
import Circulation.Proofs.Lock.Incomplete

/-!
# Times of claims and of accounts

Claims and accounts state times in the same forms, but the forms are tried in another order: for a
claim first the text of RFC 3339 and then the seconds since the epoch, for an account the other way
round. No text has both forms, so the order makes no difference.

## Main definitions

* `Circulation.Instant.IsDenotedBy` — the texts that denote an instant.

## Main results

* `Circulation.ClaimRecord.timeOf_string_agrees` — a text denotes the same time for a claim and for an
  account.
-/

namespace Circulation

open Json

namespace Instant

/-- The texts that denote an instant, blanks around them being passed over: those of RFC 3339, and the
numerals of seconds since the epoch other than zero. -/
inductive IsDenotedBy (t : Instant) (s : String) : Prop
  | shown (h : parse s = .ok t)
  | seconds (h : ofUnixText s = .ok (some t))

variable {t u : Instant} {s : String}

theorem ofRfc3339_of_parse (h : parse s = .ok t) :
    Instant.ofRfc3339 (Text.trimChars s.toList) = .ok t :=
  mapError_eq_ok.mp h

/-- **No text has both forms.** -/
theorem int64?_eq_none_of_parse (h : parse s = .ok t) :
    Numeral.int64? (Text.trimChars s.toList) = none := by
  rw [Numeral.int64?, integer?_eq_none_of_ofRfc3339 (ofRfc3339_of_parse h)]
  rfl

theorem exists_ofUnixText_eq_error_of_parse (h : parse s = .ok t) :
    ∃ why, ofUnixText s = .error why := by
  have hne : Text.trimChars s.toList ≠ [] := by
    intro hnil
    obtain ⟨ds, rest, hcs, -⟩ := exists_year_of_ofRfc3339 (ofRfc3339_of_parse h)
    rw [hnil] at hcs
    exact List.append_ne_nil_of_right_ne_nil ds (List.cons_ne_nil '-' rest) hcs.symm
  unfold ofUnixText
  simp only [if_neg hne, int64?_eq_none_of_parse h]
  exact ⟨_, rfl⟩

/-- Blanks around a text make no difference. -/
theorem parse_trimmed (s : String) :
    parse (String.ofList (Text.trimChars s.toList)) = parse s := by
  rw [parse, String.toList_ofList, Text.trimChars_trimChars, ← parse]

theorem ofUnixText_trimmed (s : String) :
    ofUnixText (String.ofList (Text.trimChars s.toList)) = ofUnixText s := by
  unfold ofUnixText
  rw [String.toList_ofList, Text.trimChars_trimChars]

end Instant

/-! ### The two orders -/

/-- The time of an account as a text, seconds being tried first. -/
theorem AccountLock.timeOf_some (s : String) :
    timeOf (some s) =
      match Instant.ofUnixText s with
      | .ok t? => .ok t?
      | .error _ => (Instant.parse s).map some := by
  by_cases hnil : Text.trimChars s.toList = []
  · have hunix : Instant.ofUnixText s = .ok none := by
      unfold Instant.ofUnixText
      rw [if_pos hnil]
    rw [hunix, timeOf, Option.map_some, hnil]
  · unfold timeOf
    rw [Option.map_some]
    split
    · next h => exact absurd h (Option.some_ne_none _)
    · next h => exact absurd (Option.some.inj h) hnil
    · next t _ h =>
      obtain rfl := Option.some.inj h
      cases hunix : Instant.ofUnixText s <;>
        simp only [Instant.parse_trimmed, Instant.ofUnixText_trimmed, hunix]

theorem AccountLock.timeOf_eq_some_iff {t : Instant} {s : String} :
    (timeOf (some s)).toOption.join = some t ↔ t.IsDenotedBy s := by
  rw [timeOf_some]
  cases hunix : Instant.ofUnixText s with
  | ok t? =>
    constructor
    · intro h
      obtain rfl : t? = some t := h
      exact .seconds hunix
    · rintro (hparse | hseconds)
      · obtain ⟨why, hwhy⟩ := Instant.exists_ofUnixText_eq_error_of_parse hparse
        exact nomatch hwhy.symm.trans hunix
      · exact Except.ok.inj (hunix.symm.trans hseconds)
  | error why =>
    constructor
    · intro h
      refine .shown ?_
      cases hparse : Instant.parse s with
      | ok u =>
        rw [hparse] at h
        exact congrArg Except.ok (Option.some.inj h)
      | error why =>
        rw [hparse] at h
        exact nomatch h
    · rintro (hparse | hseconds)
      · rw [hparse]
        rfl
      · exact nomatch hunix.symm.trans hseconds

namespace ClaimRecord

theorem timeOf_string_of_parse {t : Instant} {s : String} (h : Instant.parse s = .ok t) :
    timeOf (.string s) = some t := by
  simp only [timeOf, h]

theorem timeOf_string_of_error {s : String} {why : ReadError} (h : Instant.parse s = .error why) :
    timeOf (.string s) = (Instant.ofUnixText s).toOption.join := by
  simp only [timeOf, h]
  rfl

/-- What a claim takes from a text. -/
theorem timeOf_string_eq_some_iff {t : Instant} {s : String} :
    timeOf (.string s) = some t ↔ t.IsDenotedBy s := by
  cases hparse : Instant.parse s with
  | ok u =>
    rw [timeOf_string_of_parse hparse]
    constructor
    · intro h
      obtain rfl := Option.some.inj h
      exact .shown hparse
    · rintro (hshown | hseconds)
      · exact congrArg some (Except.ok.inj (hparse.symm.trans hshown))
      · obtain ⟨why, hwhy⟩ := Instant.exists_ofUnixText_eq_error_of_parse hparse
        exact nomatch hwhy.symm.trans hseconds
  | error why =>
    rw [timeOf_string_of_error hparse]
    constructor
    · intro h
      obtain ⟨t?, ht?, rfl⟩ := Option.bind_eq_some_iff.mp h
      exact .seconds (toOption_eq_some_iff.mp ht?)
    · rintro (hshown | hseconds)
      · exact nomatch hparse.symm.trans hshown
      · rw [hseconds]
        rfl

theorem time_of_ofItem? {shape : Shape} {denom : String} {item : Json} {record : ClaimRecord}
    (h : ofItem? shape denom item = some record) :
    record.time = (shape.timeKeys.findSome? fun key => item.member? key).bind timeOf := by
  rw [ofItem?_eq] at h
  obtain ⟨address, -, rfl⟩ := Option.map_eq_some_iff.mp h
  rfl

/-- **A text denotes the same time** for a claim and for an account, or none for either, where a text
that an account refuses denotes none. A text of RFC 3339 is no numeral of a 64-bit word, so that no text
has two meanings. A claim and an account that are decoded and state a time by the same text have the
same time. -/
theorem timeOf_string_agrees (s : String) :
    timeOf (.string s) = (AccountLock.timeOf (some s)).toOption.join ∧
      (∀ t, Instant.parse s = .ok t → Numeral.int64? (Text.trimChars s.toList) = none) ∧
      ∀ {shape : Shape} {denom : String} {item account : Json} {record : ClaimRecord}
        {lock : AccountLock} (time : LockTime), ofItem? shape denom item = some record →
        (shape.timeKeys.findSome? fun key => item.member? key) = some (.string s) →
        AccountLock.ofJson account = .ok lock →
        AccountLock.statedTime? account time = some (.string s) → lock.time? time = record.time := by
  have hagrees : timeOf (.string s) = (AccountLock.timeOf (some s)).toOption.join :=
    Option.ext fun t => timeOf_string_eq_some_iff.trans AccountLock.timeOf_eq_some_iff.symm
  refine ⟨hagrees, fun t ht => Instant.int64?_eq_none_of_parse ht, ?_⟩
  intro shape denom item account record lock time hitem hvalue haccount hlock
  have htime : AccountLock.timeOf (some s) = .ok (lock.time? time) := by
    rw [← AccountLock.timeOf_of_ofJson haccount, hlock]
    rfl
  rw [time_of_ofItem? hitem, hvalue, Option.bind_some, hagrees, htime]
  rfl

/-- A claim and an account that state the fifth second of the epoch. -/
theorem timeOf_string_agrees_seconds :
    let item : Json := .object [("destAddress", .string "a"), ("claimTime", .string " 5")]
    let account : Json := .object [("@type", .string "/cosmos.vesting.v1beta1.DelayedVestingAccount"),
      ("base_vesting_account", .object [("end_time", .string " 5")])]
    ∃ record lock, ofItem? .claims "ulume" item = some record ∧
      (Shape.claims.timeKeys.findSome? fun key => item.member? key) = some (.string " 5") ∧
      AccountLock.ofJson account = .ok lock ∧
      AccountLock.statedTime? account .stop = some (.string " 5") ∧
      record.time = some ⟨5000000000, 0⟩ ∧ lock.time? .stop = record.time := by
  intro item account
  let record : ClaimRecord := ⟨"a", some ⟨5000000000, 0⟩, none⟩
  let lock : AccountLock := ⟨"/cosmos.vesting.v1beta1.DelayedVestingAccount", .delayed, [], none,
    some ⟨5000000000, 0⟩, [], []⟩
  have hitem : ofItem? .claims "ulume" item = some record := by decide +kernel
  have hlock : AccountLock.ofJson account = .ok lock := eq_ok_of_toOption (by decide +kernel)
  have hagrees := (timeOf_string_agrees " 5").2.2 .stop hitem rfl hlock rfl
  exact ⟨record, lock, hitem, rfl, hlock, rfl, rfl, hagrees⟩

end ClaimRecord

end Circulation
