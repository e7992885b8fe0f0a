import Mathlib.Data.List.DropRight
import Circulation.Proofs.Json.Fields
import Circulation.Proofs.Lock.Forms
import Circulation.Proofs.Lock.Plan

/-!
# Incomplete locks

A lock that opens all at once needs its end, one that opens period by period its start, and one that
opens evenly both. A lock of which something is granted and that lacks a time which it needs is never
evaluated to an amount, at no instant. A time is lacking in an account that is decoded exactly where the
account states none: where there is no value for it, where the value is neither a text nor a number, and
where it is blank or the number zero.

## Main definitions

* `Circulation.AccountLock.needs` — the times that a lock needs.
* `Circulation.AccountLock.missing?` — the first of them that it lacks.
* `Circulation.AccountLock.statedTime?` — the value that an account has for a time of its lock.
* `Circulation.Json.LacksTime` — the values that denote no time.

## Main results

* `Circulation.AccountLock.lockedAt_of_missing?` — a lock that lacks a time is not evaluated.
* `Circulation.AccountLock.time?_eq_none_iff` — when an account that is decoded lacks a time.
-/

namespace Circulation

open Json

/-! ### The times that a lock needs -/

namespace AccountLock

variable {lock : AccountLock} {denom : String} {granted : Nat} {time : LockTime}

/-- A time of a lock, if the lock has it. -/
def time? (lock : AccountLock) : LockTime → Option Instant
  | .start => lock.startTime
  | .stop => lock.endTime

/-- The times that the discipline of a lock needs, in the order in which they are looked for. -/
def needs (lock : AccountLock) : List LockTime :=
  match lock.kind with
  | .delayed => [.stop]
  | .continuous => [.start, .stop]
  | .periodic => [.start]
  | .clawback => if lock.vestingPeriods = [] then [.start, .stop] else [.start]
  | .permanent | .unknown => []

/-- The first of some times that a lock lacks. -/
def firstLacking? (lock : AccountLock) (times : List LockTime) : Option LockTime :=
  times.find? fun time => (lock.time? time).isNone

/-- The first time that a lock needs and lacks. -/
def missing? (lock : AccountLock) : Option LockTime :=
  lock.firstLacking? lock.needs

theorem exists_missing? (hneeds : time ∈ lock.needs) (hnone : lock.time? time = none) :
    ∃ missing, lock.missing? = some missing := by
  rw [← Option.isSome_iff_exists, missing?, firstLacking?, List.find?_isSome]
  exact ⟨time, hneeds, Option.isNone_iff_eq_none.mpr hnone⟩

/-- Looking for the times of a lock fails at the first that it lacks. -/
theorem needed_bind_of_firstLacking? {α : Type} {kind : LockKind} {first : LockTime}
    {times : List LockTime} {f : Instant → Except LockError α}
    (h : lock.firstLacking? (first :: times) = some time)
    (hf : ∀ t, lock.firstLacking? times = some time → f t = .error (.incomplete kind time)) :
    (needed kind first (lock.time? first) >>= f) = .error (.incomplete kind time) := by
  rw [firstLacking?, List.find?_cons] at h
  cases hfirst : lock.time? first with
  | none =>
    rw [hfirst] at h
    obtain rfl := Option.some.inj h
    rfl
  | some t =>
    rw [hfirst] at h
    exact hf t h

theorem periodicPortion_of_firstLacking? (h : lock.firstLacking? [.start] = some time)
    (now : Instant) : lock.periodicPortion denom now = .error (.incomplete lock.kind time) :=
  needed_bind_of_firstLacking? h nofun

/-- **A lock that lacks a time is not evaluated**, whatever the instant. -/
theorem lockedAt_of_missing? (hgranted : amountOf lock.grantedCoins denom = .ok granted)
    (hpositive : 0 < granted) (h : lock.missing? = some time) (now : Instant) :
    lock.lockedAt denom now = .error (.incomplete lock.kind time) := by
  have hperiodic : lock.firstLacking? [.start] = some time →
      lock.periodicPortion denom now = .error (.incomplete lock.kind time) :=
    fun h => periodicPortion_of_firstLacking? h now
  rw [lockedAt, hgranted, ok_bind, if_neg (Nat.ne_of_gt hpositive)]
  rw [missing?, needs] at h
  cases hkind : lock.kind with
  | permanent | unknown =>
    rw [hkind] at h
    exact nomatch h
  | delayed =>
    rw [hkind] at h
    exact needed_bind_of_firstLacking? h nofun
  | continuous =>
    rw [hkind] at h
    exact needed_bind_of_firstLacking? h fun _ h => needed_bind_of_firstLacking? h nofun
  | periodic =>
    rw [hkind] at h hperiodic
    exact hperiodic h
  | clawback =>
    rw [hkind] at h hperiodic
    dsimp only at h ⊢
    by_cases hperiods : lock.vestingPeriods = []
    · rw [if_pos hperiods] at h
      rw [if_neg (not_not_intro hperiods)]
      exact needed_bind_of_firstLacking? h fun _ h => needed_bind_of_firstLacking? h nofun
    · rw [if_neg hperiods] at h
      rw [if_pos hperiods]
      exact hperiodic h

end AccountLock

/-! ### Values that denote no time -/

namespace Text

/-- What is trimmed has no blanks left to trim. -/
theorem trimChars_trimChars (cs : List Char) : trimChars (trimChars cs) = trimChars cs := by
  have hfront : (trimChars cs).dropWhile isBlank = trimChars cs := by
    rw [List.dropWhile_eq_self_iff]
    intro hpos
    have hfirst : trimChars cs <+: cs.dropWhile isBlank := List.rdropWhile_prefix _ _
    rw [hfirst.getElem hpos]
    exact List.dropWhile_get_zero_not isBlank cs _
  show List.rdropWhile isBlank ((trimChars cs).dropWhile isBlank) = _
  rw [hfront]
  exact List.rdropWhile_idempotent isBlank (cs.dropWhile isBlank)

end Text

namespace Instant

/-- Trimmed seconds denote no time exactly if they are zero. -/
theorem ofUnixText_eq_none_iff {t : List Char} (htrim : Text.trimChars t = t) (hne : t ≠ []) :
    ofUnixText (String.ofList t) = .ok none ↔ Numeral.int64? t = some 0 := by
  unfold ofUnixText
  simp only [String.toList_ofList, htrim, if_neg hne]
  split
  · next h => simp [h]
  · next h => simp [h]
  · next seconds hzero h =>
    have hzero : seconds ≠ 0 := hzero
    cases ofUnixSeconds? seconds <;> simp [h, hzero]

end Instant

namespace Json

/-- The values that denote no time: none at all, one that is neither a text nor a number, and one whose
text is blank or the number zero. -/
inductive LacksTime : Option Json → Prop
  | absent : LacksTime none
  | other {v : Json} (h : v.formText? = none) : LacksTime (some v)
  | blank {v : Json} {s : String} (h : v.formText? = some s) (hblank : Text.trimChars s.toList = []) :
      LacksTime (some v)
  | zero {v : Json} {s : String} (h : v.formText? = some s)
      (hzero : Numeral.int64? (Text.trimChars s.toList) = some 0) : LacksTime (some v)

/-- A text or a number denotes no time exactly if it is blank or the number zero. -/
theorem lacksTime_iff_of_formText? {v : Json} {s : String} (htext : v.formText? = some s) :
    LacksTime (some v) ↔ Text.trimChars s.toList = [] ∨
      Numeral.int64? (Text.trimChars s.toList) = some 0 := by
  constructor
  · rintro (_ | hnone | ⟨h, hblank⟩ | ⟨h, hzero⟩)
    · exact nomatch hnone.symm.trans htext
    · obtain rfl := Option.some.inj (htext.symm.trans h)
      exact .inl hblank
    · obtain rfl := Option.some.inj (htext.symm.trans h)
      exact .inr hzero
  · rintro (hblank | hzero)
    · exact .blank htext hblank
    · exact .zero htext hzero

/-- The marks of no time denote none. -/
theorem StatesNoTime.lacksTime {v? : Option Json} (h : StatesNoTime v?) : LacksTime v? := by
  cases h with
  | absent => exact .absent
  | null => exact .other rfl
  | empty => exact .blank rfl rfl
  | zeroText => exact .zero rfl (by decide)
  | zero => exact .zero rfl (by decide)

end Json

/-! ### Times that an account lacks -/

namespace AccountLock

/-- The names of the fields of an account, in their order. -/
def accountFields : List String :=
  ["@type", "base_vesting_account", "start_time", "vesting_periods", "lockup_periods"]

/-- The names of the fields of the base of an account, in their order. -/
def baseFields : List String :=
  ["original_vesting", "end_time"]

/-- The value that an account has for a time of its lock. The end stands in the base of the account. -/
def statedTime? (account : Json) : LockTime → Option Json
  | .start => account.fieldOf? accountFields "start_time"
  | .stop => (account.fieldOf? accountFields "base_vesting_account").bind
      (·.fieldOf? baseFields "end_time")

/-- A value is decoded as no time exactly if it denotes none. -/
theorem timeOf_eq_none_iff {v? : Option Json} :
    timeOf (v?.bind formText?) = .ok none ↔ LacksTime v? := by
  cases v? with
  | none => exact iff_of_true rfl .absent
  | some v =>
    rw [Option.bind_some]
    cases htext : v.formText? with
    | none => exact iff_of_true rfl (.other htext)
    | some s =>
      rw [lacksTime_iff_of_formText? htext, timeOf, Option.map_some]
      split
      · next h => exact nomatch h
      · next h => exact iff_of_true rfl (.inl (Option.some.inj h))
      · next t hne h =>
        obtain rfl := Option.some.inj h
        have hne : Text.trimChars s.toList ≠ [] := hne
        have hunix := Instant.ofUnixText_eq_none_iff (Text.trimChars_trimChars s.toList) hne
        simp only [hne, false_or, ← hunix]
        cases Instant.ofUnixText (String.ofList (Text.trimChars s.toList)) with
        | ok t? => exact Iff.rfl
        | error why =>
          refine iff_of_false (fun hparse => ?_) nofun
          obtain ⟨t, -, ht⟩ := map_eq_ok.mp hparse
          exact nomatch ht

/-- A time that stands in a field. -/
theorem build_textOrNumber {p : Present} {field : String} {v? : Option Json}
    (hfield : p.node? field = v?.map Node.ofValue) :
    (Record.defaulted field textOrNumber none).build p = .ok (v?.bind formText?) := by
  rw [Record.build_defaulted, hfield]
  cases v? with
  | none => rfl
  | some v =>
    rw [Option.map_some, Option.bind_some, ← Tree.node_ofJson]
    exact textOrNumber_ofJson v

/-- The end of a base that is decoded. -/
theorem endTime_of_decoder {base : Json} {parts : BaseParts}
    (h : BaseParts.decoder (Node.ofValue base) = .ok parts) :
    parts.endTime = (base.fieldOf? baseFields "end_time").bind formText? := by
  obtain ⟨p, hbuild, hnode⟩ := Record.exists_build_of_decoder baseFields rfl (by decide) h
  simp only [Record.build_seq_eq_ok, Record.build_map_eq_ok, Except.ok.injEq,
    build_textOrNumber (hnode "end_time" (by decide))] at hbuild
  obtain ⟨_, _, ⟨_, -, rfl⟩, rfl, rfl⟩ := hbuild
  rfl

/-- The end of a base that may be `null`. -/
theorem endTime_of_optional {base : Json} {parts? : Option BaseParts}
    (h : Decoder.optional BaseParts.decoder (Node.ofValue base) = .ok parts?) :
    parts?.bind (·.endTime) = (base.fieldOf? baseFields "end_time").bind formText? := by
  by_cases hnull : base = .null
  · subst hnull
    obtain rfl := Except.ok.inj h
    rfl
  · have hsome : Decoder.optional BaseParts.decoder (Node.ofValue base) =
        (BaseParts.decoder (Node.ofValue base)).map some := by
      cases base with
      | null => exact absurd rfl hnull
      | _ => rfl
    rw [hsome] at h
    obtain ⟨parts, hparts, rfl⟩ := map_eq_ok.mp h
    exact endTime_of_decoder hparts

/-- The times of an account that is decoded. -/
theorem times_of_decoder {account : Json} {parts : AccountParts}
    (h : AccountParts.decoder (Node.ofValue account) = .ok parts) :
    parts.startTime = (statedTime? account .start).bind formText? ∧
      parts.base.bind (·.endTime) = (statedTime? account .stop).bind formText? := by
  obtain ⟨p, hbuild, hnode⟩ :=
    Record.exists_build_of_decoder accountFields rfl (by decide) h
  simp only [Record.build_seq_eq_ok, Record.build_map_eq_ok, Except.ok.injEq,
    Record.build_defaulted "base_vesting_account", hnode "base_vesting_account" (by decide),
    build_textOrNumber (hnode "start_time" (by decide))] at hbuild
  obtain ⟨_, _, ⟨_, _, ⟨_, _, ⟨_, base?, ⟨_, -, rfl⟩, hbase, rfl⟩, rfl, rfl⟩, -, rfl⟩, -, rfl⟩ := hbuild
  refine ⟨rfl, ?_⟩
  show base?.bind (·.endTime) = _
  rw [statedTime?]
  cases hfield : account.fieldOf? accountFields "base_vesting_account" with
  | none =>
    rw [hfield] at hbase
    obtain rfl := Except.ok.inj hbase
    rfl
  | some base =>
    rw [hfield] at hbase
    exact endTime_of_optional hbase

/-- A time of an account that is decoded is that of its value. -/
theorem timeOf_of_ofJson {account : Json} {lock : AccountLock} (h : ofJson account = .ok lock)
    (time : LockTime) : timeOf ((statedTime? account time).bind formText?) = .ok (lock.time? time) := by
  obtain ⟨parts, hparts, hlock⟩ := bind_eq_ok.mp h
  rw [mapError_eq_ok] at hparts hlock
  rw [Decoder.ofValue, mapError_eq_ok] at hparts
  obtain ⟨hstart, hstop⟩ := times_of_decoder hparts
  simp only [ofParts, bind_eq_ok, pure_eq_ok, hstart, hstop] at hlock
  obtain ⟨startTime, hstartTime, endTime, hendTime, _, -, _, -, rfl⟩ := hlock
  cases time with
  | start => exact hstartTime
  | stop => exact hendTime

/-- **When an account lacks a time.** An account that is decoded lacks a time exactly if its value for
the time denotes none. -/
theorem time?_eq_none_iff {account : Json} {lock : AccountLock} (h : ofJson account = .ok lock)
    (time : LockTime) : lock.time? time = none ↔ LacksTime (statedTime? account time) := by
  rw [← timeOf_eq_none_iff, timeOf_of_ofJson h, Except.ok.injEq]

end AccountLock

end Circulation
