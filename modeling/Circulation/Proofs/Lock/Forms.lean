import Circulation.Lock.Account
import Circulation.Proofs.Instant.Forms
import Circulation.Proofs.Json.Outline
import Circulation.Proofs.Json.Written

/-!
# The forms of an account

The chain states a lock in many ways: times and lengths as texts or as numbers, what is unset as
nothing at all or as one of several marks, lists that are empty as nothing or as `null`, and the members
of every object in any order and among others. All forms of a lock are decoded as the same lock, whose
times are the same instants.

## Main definitions

* `Circulation.Json.StatesList` — the forms of a list.
* `Circulation.Coin.IsStatedBy`, `Circulation.LockPeriod.IsStatedBy`,
  `Circulation.AccountLock.BaseIsStatedBy`, `Circulation.AccountLock.IsStatedBy` — the forms of a lock
  and of its parts.

## Main results

* `Circulation.AccountLock.timeOf_of_isStatedBy?` — a time is decoded as its instant.
* `Circulation.AccountLock.ofJson_of_isStatedBy` — a lock is decoded from any of its forms.
-/

namespace Circulation

open Json

/-! ### Forms -/

/-- The forms of a list: an array of forms of the items, or nothing or `null` in place of an empty
list. -/
inductive Json.StatesList {α : Type} (item : α → Json → Prop) : List α → Option Json → Prop
  | array {as : List α} {vs : List Json} (h : List.Forall₂ item as vs) :
      StatesList item as (some (.array vs))
  | absent : StatesList item [] none
  | null : StatesList item [] (some .null)

/-- The forms of a coin. -/
inductive Coin.IsStatedBy (c : Coin) : Json → Prop
  | object {ms : List (String × Json)} (hdenom : Has ms "denom" (some (.string c.denom)))
      (hamount : Has ms "amount" (some (.string c.amount))) : IsStatedBy c (.object ms)

/-- The forms of a period, whose length is an integer of 64 bits. -/
inductive LockPeriod.IsStatedBy (p : LockPeriod) : Json → Prop
  | object {ms : List (String × Json)} {length : Json} {coins? : Option Json}
      (hlength : Has ms "length" (some length)) (hcoins : Has ms "amount" coins?)
      (hfits : Numeral.FitsInt64 p.lengthSeconds) (hseconds : StatesInteger p.lengthSeconds length)
      (hlist : StatesList Coin.IsStatedBy p.coins coins?) : IsStatedBy p (.object ms)

namespace AccountLock

/-- The forms of the base of a lock, which has the granted coins and the end time. It is nothing or
`null` only if there are neither. -/
inductive BaseIsStatedBy (lock : AccountLock) : Option Json → Prop
  | object {ms : List (String × Json)} {coins? stop? : Option Json}
      (hcoins : Has ms "original_vesting" coins?) (hstop : Has ms "end_time" stop?)
      (hlist : StatesList Coin.IsStatedBy lock.grantedCoins coins?)
      (htime : Instant.IsStatedBy? lock.endTime stop?) : BaseIsStatedBy lock (some (.object ms))
  | absent (hcoins : lock.grantedCoins = []) (htime : lock.endTime = none) : BaseIsStatedBy lock none
  | null (hcoins : lock.grantedCoins = []) (htime : lock.endTime = none) :
      BaseIsStatedBy lock (some .null)

/-- The forms of a lock. -/
inductive IsStatedBy (lock : AccountLock) : Json → Prop
  | object {ms : List (String × Json)} {base? start? vesting? lockup? : Option Json}
      (htype : Has ms "@type" (some (.string lock.typeUrl)))
      (hbase : Has ms "base_vesting_account" base?) (hstart : Has ms "start_time" start?)
      (hvesting : Has ms "vesting_periods" vesting?) (hlockup : Has ms "lockup_periods" lockup?)
      (hbaseForm : lock.BaseIsStatedBy base?) (htime : Instant.IsStatedBy? lock.startTime start?)
      (hvestingForm : StatesList LockPeriod.IsStatedBy lock.vestingPeriods vesting?)
      (hlockupForm : StatesList LockPeriod.IsStatedBy lock.lockupPeriods lockup?) :
      IsStatedBy lock (.object ms)

end AccountLock

/-! ### Lists -/

section Lists

variable {α β : Type} {item : α → Json → Prop} {d : Decoder β} {made : β → α → Prop}

/-- What each form of an item is decoded as. -/
theorem exists_items (hitem : ∀ a v, item a v → ∃ b, d (Tree.ofJson v).node = .ok b ∧ made b a)
    {as : List α} {vs : List Json} (h : List.Forall₂ item as vs) :
    ∃ bs, List.Forall₂ (fun b v => d (Tree.ofJson v).node = .ok b) bs vs ∧ List.Forall₂ made bs as := by
  induction h with
  | nil => exact ⟨[], .nil, .nil⟩
  | cons hav _ ih =>
    obtain ⟨b, hb, hmade⟩ := hitem _ _ hav
    obtain ⟨bs, hbs, hall⟩ := ih
    exact ⟨b :: bs, .cons hb hbs, .cons hmade hall⟩

/-- A list is read from any of its forms if its items are. -/
theorem Json.Has.reads_statesList
    (hitem : ∀ a v, item a v → ∃ b, d (Tree.ofJson v).node = .ok b ∧ made b a)
    {ms : List (String × Json)} {key : String} {v? : Option Json} (h : Has ms key v?) {as : List α}
    (hv : StatesList item as v?) :
    ∃ bs?, (Record.defaulted key (.optional (.list d)) none).Reads (Tree.ofMembers ms) bs? ∧
      List.Forall₂ made (bs?.getD []) as := by
  cases hv with
  | absent => exact ⟨none, h.reads_defaulted nofun fun _ => rfl, .nil⟩
  | null =>
    refine ⟨none, h.reads_defaulted (fun v hv => ?_) nofun, .nil⟩
    obtain rfl := Option.some.inj hv
    rfl
  | array hvs =>
    obtain ⟨bs, hbs, hmade⟩ := exists_items hitem hvs
    refine ⟨some bs, h.reads_defaulted (fun v hv => ?_) nofun, hmade⟩
    obtain rfl := Option.some.inj hv
    exact congrArg (Except.map some) (Decoder.list_array hbs)

end Lists

theorem Coin.decoder_of_isStatedBy {c : Coin} {v : Json} (h : c.IsStatedBy v) :
    decoder (Tree.ofJson v).node = .ok c := by
  cases h with
  | object hdenom hamount =>
    exact Record.Reads.decoder (.seq (.map hdenom.reads_string _) hamount.reads_string) (by decide)
      (isSome_of_mem_ofMembers _) _

/-! ### Texts and numbers -/

/-- The text of a text or of a number. -/
def Json.formText? : Json → Option String
  | .string s => some s
  | .number x => some x.text
  | _ => none

theorem Json.StatesInteger.formText? {n : Int} {v : Json} (h : StatesInteger n v) :
    ∃ s, v.formText? = some s ∧ Numeral.IsIntegerText n s.toList := by
  cases h with
  | text h => exact ⟨_, rfl, h⟩
  | number => exact ⟨_, rfl, Numeral.isIntegerText_text n⟩

namespace AccountLock

theorem textOrNumber_ofJson (v : Json) : textOrNumber (Tree.ofJson v).node = .ok v.formText? := by
  rw [textOrNumber, Decoder.value, Tree.node_ofJson, Tree.value_ofValue]
  cases v <;> rfl

theorem reads_textOrNumber {ms : List (String × Json)} {key : String} {v? : Option Json}
    (h : Has ms key v?) :
    (Record.defaulted key textOrNumber none).Reads (Tree.ofMembers ms) (v?.bind formText?) := by
  refine h.reads_defaulted (fun v hv => ?_) fun hv => by rw [hv]; rfl
  rw [textOrNumber_ofJson, Option.mem_def.mp hv]
  rfl

theorem timeOf_of_trimmed {s : String} (htrim : Text.trimChars s.toList = s.toList)
    (hne : s.toList ≠ []) :
    timeOf (some s) =
      match Instant.ofUnixText s with
      | .ok instant => .ok instant
      | .error _ => (Instant.parse s).map some := by
  unfold timeOf
  rw [Option.map_some, htrim]
  split
  · next heq => exact nomatch heq
  · next heq => exact absurd (Option.some.inj heq) hne
  · next heq =>
    obtain rfl := Option.some.inj heq
    rewrite [String.ofList_toList]
    rfl

/-- **A time is decoded** from any of its forms as the same instant. -/
theorem timeOf_of_isStatedBy? {t? : Option Instant} {v? : Option Json}
    (h : Instant.IsStatedBy? t? v?) :
    ∃ u?, timeOf (v?.bind formText?) = .ok u? ∧ u?.map (·.nanos) = t?.map (·.nanos) := by
  cases h with
  | unset h => cases h <;> exact ⟨none, rfl, rfl⟩
  | @set t v h =>
    cases h with
    | @seconds n _ hn hv =>
      obtain ⟨s, hs, hnumeral⟩ := hv.formText?
      refine ⟨some t.toUtc, ?_, rfl⟩
      rw [Option.bind_some, hs, timeOf_of_trimmed hnumeral.trimChars_eq hnumeral.ne_nil,
        hn.ofUnixText hnumeral]
    | @shown u s hnanos h =>
      obtain ⟨why, hwhy⟩ := h.ofUnixText_eq_error
      refine ⟨some u, ?_, congrArg some hnanos⟩
      show timeOf (some s) = _
      rw [timeOf_of_trimmed h.trimChars_eq h.ne_nil, hwhy, h.parse]
      rfl

/-! ### Parts -/

/-- Coins are decoded from any of the forms of their list. -/
theorem reads_coins {ms : List (String × Json)} {key : String} {v? : Option Json} (h : Has ms key v?)
    {coins : List Coin} (hv : StatesList Coin.IsStatedBy coins v?) :
    ∃ coins?, (Record.defaulted key (.optional (.list Coin.decoder)) none).Reads (Tree.ofMembers ms)
      coins? ∧ coins?.getD [] = coins := by
  have hitem : ∀ c v, Coin.IsStatedBy c v →
      ∃ c', Coin.decoder (Tree.ofJson v).node = .ok c' ∧ c' = c :=
    fun c _ hc => ⟨c, Coin.decoder_of_isStatedBy hc, rfl⟩
  obtain ⟨coins?, hread, hcoins⟩ := h.reads_statesList hitem hv
  exact ⟨coins?, hread, by simpa using hcoins⟩

/-- A period is decoded from any of its forms. -/
theorem exists_period {p : LockPeriod} {v : Json} (h : p.IsStatedBy v) :
    ∃ parts, PeriodParts.decoder (Tree.ofJson v).node = .ok parts ∧ periodOf parts = .ok p := by
  cases h with
  | object hlength hcoins hfits hseconds hlist =>
    obtain ⟨coins?, hread, hcoins⟩ := reads_coins hcoins hlist
    obtain ⟨s, hs, hnumeral⟩ := hseconds.formText?
    refine ⟨_, Record.Reads.decoder (.seq (.map (reads_textOrNumber hlength) _) hread) (by decide)
      (isSome_of_mem_ofMembers _) _, ?_⟩
    have htext : (Text.trimChars s.toList) = s.toList := hnumeral.trimChars_eq
    simp only [periodOf, Option.bind_some, hs, Option.getD_some, htext, hnumeral.int64? hfits, hcoins]

/-- Periods are decoded from any of the forms of their list. -/
theorem reads_periods {ms : List (String × Json)} {key : String} {v? : Option Json} (h : Has ms key v?)
    {periods : List LockPeriod} (hv : StatesList LockPeriod.IsStatedBy periods v?) :
    ∃ parts?, (Record.defaulted key (.optional (.list PeriodParts.decoder)) none).Reads
      (Tree.ofMembers ms) parts? ∧ periodsOf parts? = .ok periods := by
  obtain ⟨parts?, hread, hparts⟩ := h.reads_statesList (d := PeriodParts.decoder)
    (fun _ _ hp => exists_period hp) hv
  exact ⟨parts?, hread, mapM_eq_ok_iff.mpr hparts⟩

/-- The base of a lock is decoded from any of its forms. -/
theorem reads_base {lock : AccountLock} {ms : List (String × Json)} {v? : Option Json}
    (h : Has ms "base_vesting_account" v?) (hv : lock.BaseIsStatedBy v?) :
    ∃ base?, (Record.defaulted "base_vesting_account" (.optional BaseParts.decoder) none).Reads
        (Tree.ofMembers ms) base? ∧
      (base?.bind (·.grantedCoins)).getD [] = lock.grantedCoins ∧
      ∃ stop?, timeOf (base?.bind (·.endTime)) = .ok stop? ∧
        stop?.map (·.nanos) = lock.endTime.map (·.nanos) := by
  cases hv with
  | absent hcoins htime =>
    exact ⟨none, h.reads_defaulted nofun fun _ => rfl, hcoins.symm, none, rfl, by rw [htime]⟩
  | null hcoins htime =>
    refine ⟨none, h.reads_defaulted (fun v hv => ?_) nofun, hcoins.symm, none, rfl, by rw [htime]⟩
    obtain rfl := Option.some.inj hv
    rfl
  | object hcoins hstop hlist htime =>
    obtain ⟨coins?, hread, hcoins⟩ := reads_coins hcoins hlist
    obtain ⟨stop?, hstop?, hnanos⟩ := timeOf_of_isStatedBy? htime
    have hbase := Record.Reads.decoder (.seq (.map hread BaseParts.mk) (reads_textOrNumber hstop))
      (by decide) (isSome_of_mem_ofMembers _) "RawBaseVesting"
    refine ⟨some ⟨_, _⟩, h.reads_defaulted (fun v hv => ?_) nofun, hcoins, _, hstop?, hnanos⟩
    obtain rfl := Option.some.inj hv
    exact congrArg (Except.map some) hbase

/-- **A lock is decoded** from any of its forms: all of it is the same, and its times are the same
instants. -/
theorem ofJson_of_isStatedBy {lock : AccountLock} (hkind : lock.kind = LockKind.ofTypeUrl lock.typeUrl)
    {account : Json} (h : lock.IsStatedBy account) :
    ∃ startTime endTime, ofJson account = .ok { lock with startTime, endTime } ∧
      startTime.map (·.nanos) = lock.startTime.map (·.nanos) ∧
      endTime.map (·.nanos) = lock.endTime.map (·.nanos) := by
  cases h with
  | @object ms base? start? vesting? lockup? htype hbase hstart hvesting hlockup hbaseForm htime
      hvestingForm hlockupForm =>
    have htype : (Record.defaulted "@type" Decoder.string "").Reads (Tree.ofMembers ms) lock.typeUrl := by
      refine htype.reads_defaulted (fun v hv => ?_) nofun
      obtain rfl := Option.some.inj hv
      rfl
    obtain ⟨base, hbase, hcoins, endTime, hend, hendNanos⟩ := reads_base hbase hbaseForm
    obtain ⟨startTime, hstartTime, hstartNanos⟩ := timeOf_of_isStatedBy? htime
    obtain ⟨vesting, hvesting, hvestingPeriods⟩ := reads_periods hvesting hvestingForm
    obtain ⟨lockup, hlockup, hlockupPeriods⟩ := reads_periods hlockup hlockupForm
    have hparts := Record.Reads.decoder (.seq (.seq (.seq (.seq (.map htype AccountParts.mk) hbase)
      (reads_textOrNumber hstart)) hvesting) hlockup) (by decide) (isSome_of_mem_ofMembers _)
      "RawAccount"
    refine ⟨startTime, endTime, ?_, hstartNanos, hendNanos⟩
    have hdecoded : AccountParts.decoder.ofValue (.object ms) =
        .ok ⟨lock.typeUrl, base, start?.bind formText?, vesting, lockup⟩ := by
      rw [Decoder.ofValue, ← Tree.node_ofJson, mapError_eq_ok]
      exact hparts
    rw [ofJson, hdecoded]
    show (ofParts ⟨lock.typeUrl, base, start?.bind formText?, vesting, lockup⟩).mapError _ = _
    rw [mapError_eq_ok, ofParts]
    simp only [hstartTime, hend, hvestingPeriods, hlockupPeriods, hcoins, ok_bind, ← hkind]
    rfl

/-- A periodic lock whose start is shown an hour ahead of UTC, whose end is a number, whose only period
has a length that is a text, and whose account says more. -/
theorem ofJson_of_isStatedBy_periodic :
    let lock : AccountLock := ⟨"/cosmos.vesting.v1beta1.PeriodicVestingAccount", .periodic,
      [⟨"ulume", "7"⟩], some ⟨5000000000, 0⟩, some ⟨65000000000, 0⟩, [⟨60, []⟩], []⟩
    let account : Json := .object [("lockup_periods", .null), ("note", .bool true),
      ("start_time", .string "1970-01-01T01:00:05+01:00"),
      ("vesting_periods", .array [.object [("length", .string "60")]]),
      ("base_vesting_account", .object [("end_time", .number (.int 65)), ("original_vesting",
        .array [.object [("amount", .string "7"), ("denom", .string "ulume")]])]),
      ("@type", .string "/cosmos.vesting.v1beta1.PeriodicVestingAccount")]
    lock.IsStatedBy account ∧ ∃ startTime endTime,
      ofJson account = .ok { lock with startTime, endTime } ∧
        startTime.map (·.nanos) = some 5000000000 ∧ endTime.map (·.nanos) = some 65000000000 := by
  intro lock account
  have hcoin : Coin.IsStatedBy ⟨"ulume", "7"⟩
      (.object [("amount", .string "7"), ("denom", .string "ulume")]) := .object rfl rfl
  have hsixty : (Number.int 60).text = "60" := by decide
  have hlength : Numeral.IsIntegerText 60 "60".toList := hsixty ▸ Numeral.isIntegerText_text 60
  have hperiod : LockPeriod.IsStatedBy ⟨60, []⟩ (.object [("length", .string "60")]) :=
    .object rfl (show Has _ _ none from rfl) (by decide) (.text hlength) .absent
  have hstart : Instant.IsStatedBy ⟨5000000000, 0⟩ (.string "1970-01-01T01:00:05+01:00") :=
    .shown (u := ⟨5000000000, 3600⟩) rfl (Instant.isShownBy_of_toRfc3339? (by decide +kernel))
  have hend : Instant.IsStatedBy ⟨65000000000, 0⟩ (.number (.int 65)) :=
    .seconds ⟨rfl, by decide, by decide⟩ .number
  have hbase : lock.BaseIsStatedBy (some (.object [("end_time", .number (.int 65)),
      ("original_vesting", .array [.object [("amount", .string "7"), ("denom", .string "ulume")]])])) :=
    .object (show Has _ _ (some _) from rfl) (show Has _ _ (some _) from rfl)
      (.array (.cons hcoin .nil)) (.set hend)
  have hform : lock.IsStatedBy account :=
    .object rfl (show Has _ _ (some _) from rfl) (show Has _ _ (some _) from rfl)
      (show Has _ _ (some _) from rfl) (show Has _ _ (some _) from rfl) hbase (.set hstart)
      (.array (.cons hperiod .nil)) .null
  exact ⟨hform, ofJson_of_isStatedBy (by decide) hform⟩

/-- The last hour of the year 9999 on a clock behind UTC has no seconds that are decoded, since UTC does
not support its year. -/
theorem not_ofJson_late_seconds :
    (⟨253402303800 * Instant.nanosPerSecond, -3600⟩ : Instant).IsOnClock ∧
      (⟨253402303800 * Instant.nanosPerSecond, -3600⟩ : Instant).localDate = ⟨9999, 12, 31⟩ ∧
      ∀ lock, ofJson (.object
        [("@type", .string "/cosmos.vesting.v1beta1.DelayedVestingAccount"), ("base_vesting_account",
          .object [("end_time", .string "253402303800")])]) ≠ .ok lock := by
  refine ⟨⟨by decide, by decide⟩, by decide, fun lock h => ?_⟩
  have hnone : (ofJson (.object [("@type", .string "/cosmos.vesting.v1beta1.DelayedVestingAccount"),
      ("base_vesting_account", .object [("end_time", .string "253402303800")])])).toOption = none := by
    decide +kernel
  rw [h] at hnone
  exact nomatch hnone

end AccountLock

end Circulation
