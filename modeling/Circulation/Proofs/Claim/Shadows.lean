import Circulation.Proofs.Claim.Forms

/-!
# What is found under several keys

The list of claims, the address of a claim and its time are each looked for under several keys. A key
that has a value of the wrong kind does not help, so a value of the right kind under a later key is the
one to be found. The search, however, goes no further than the first key that has a value at all, or,
for an address, a text. A value of the wrong kind under an earlier key thus shadows the one to be found:
a list that is shadowed is read as empty, a claim whose address is shadowed is left out, and a time that
is shadowed is unset. Nothing else is lost.

## Main definitions

* `Circulation.ClaimRecord.IsShadowed` — the keys of a search of which one shadows a later one.
* `Circulation.ClaimRecord.foundRecord?`, `Circulation.ClaimRecord.foundRecords` — the claims that are to
  be found in an item and in a body.
* `Circulation.ClaimRecord.LosesToShadow` — a body some of whose claims are shadowed.

## Main results

* `Circulation.ClaimRecord.bind_findSome?_of_not_isShadowed` — what is not shadowed is found.
* `Circulation.ClaimRecord.listOfText_eq_found_iff` — what is found, and what is lost to shadows.
* `Circulation.ClaimRecord.not_listOfText_eq_found` — lists, addresses and times are lost to shadows.
-/

namespace Circulation.ClaimRecord

open Json

/-! ### Searches -/

section Search

variable {α β : Type} {finds : String → Option β} {reads : β → Option α} {keys : List String}

/-- Something is found under one of the keys that cannot be read, before all that can be. -/
inductive IsShadowed (finds : String → Option β) (reads : β → Option α) : List String → Prop
  | here {key : String} {keys : List String} {b : β} (hfound : finds key = some b)
      (hunread : reads b = none) (hlater : ∃ key' ∈ keys, ∃ a, (finds key').bind reads = some a) :
      IsShadowed finds reads (key :: keys)
  | there {key : String} {keys : List String} (habsent : finds key = none)
      (h : IsShadowed finds reads keys) : IsShadowed finds reads (key :: keys)

/-- What is shadowed is there. -/
theorem IsShadowed.exists_found (h : IsShadowed finds reads keys) :
    ∃ a, (keys.findSome? fun key => (finds key).bind reads) = some a := by
  rw [← Option.isSome_iff_exists, List.findSome?_isSome_iff]
  induction h with
  | here _ _ hlater =>
    obtain ⟨key', hkey', a, ha⟩ := hlater
    exact ⟨key', List.mem_cons_of_mem _ hkey', by rw [ha]; rfl⟩
  | there _ _ ih =>
    obtain ⟨key', hkey', ha⟩ := ih
    exact ⟨key', List.mem_cons_of_mem _ hkey', ha⟩

/-- What is shadowed is not found. -/
theorem IsShadowed.bind_findSome?_eq_none (h : IsShadowed finds reads keys) :
    (keys.findSome? finds).bind reads = none := by
  induction h with
  | here hfound hunread _ =>
    rw [List.findSome?_cons_of_isSome (by rw [hfound]; rfl), hfound]
    exact hunread
  | there habsent _ ih =>
    rw [List.findSome?_cons, habsent]
    exact ih

/-- **What is not shadowed is found.** -/
theorem bind_findSome?_of_not_isShadowed (h : ¬IsShadowed finds reads keys) :
    (keys.findSome? finds).bind reads = keys.findSome? fun key => (finds key).bind reads := by
  induction keys with
  | nil => rfl
  | cons key keys ih =>
    rw [List.findSome?_cons, List.findSome?_cons]
    cases hfound : finds key with
    | none => exact ih fun hkeys => h (.there hfound hkeys)
    | some b =>
      cases hread : reads b with
      | some a => simp only [Option.bind_some, hread]
      | none =>
        -- the first key has something that cannot be read, so nothing after it can be read either
        have hlater : (keys.findSome? fun key => (finds key).bind reads) = none := by
          rw [List.findSome?_eq_none_iff]
          intro key' hkey'
          rw [Option.eq_none_iff_forall_ne_some]
          exact fun a ha => h (.here hfound hread ⟨key', hkey', a, ha⟩)
        simp only [Option.bind_some, hread, hlater]

/-- Where everything that is found can be read, nothing is shadowed. -/
theorem not_isShadowed_of_forall
    (h : ∀ key ∈ keys, (finds key).isSome → ((finds key).bind reads).isSome) :
    ¬IsShadowed finds reads keys := by
  intro hshadowed
  induction hshadowed with
  | @here key keys b hfound hunread _ =>
    have hread := h key List.mem_cons_self
    rw [hfound, Option.bind_some, hunread] at hread
    exact Bool.false_ne_true (hread rfl)
  | there _ _ ih => exact ih fun key hkey => h key (List.mem_cons_of_mem _ hkey)

/-- A single key shadows nothing. -/
theorem not_isShadowed_singleton (key : String) : ¬IsShadowed finds reads [key] := by
  rintro (⟨_, _, _, hkey', _⟩ | ⟨_, ⟨⟩⟩)
  exact absurd hkey' List.not_mem_nil

end Search

/-! ### What is to be found -/

/-- A text that is not empty. -/
def nonempty? (s : String) : Option String :=
  if s = "" then none else some s

/-- The texts of an item. -/
def textAt (item : Json) (key : String) : Option String :=
  (item.member? key).bind Json.string?

/-- The address of an item: the first text under its keys that is not empty. -/
def Shape.foundAddress? (shape : Shape) (item : Json) : Option String :=
  shape.addressKeys.findSome? fun key => (textAt item key).bind nonempty?

/-- The time of an item: the first value under its keys that denotes a time. -/
def Shape.foundTime? (shape : Shape) (item : Json) : Option Instant :=
  shape.timeKeys.findSome? fun key => (item.member? key).bind timeOf

/-- The claim to be found in an item, if the item has an address. -/
def foundRecord? (shape : Shape) (denom : String) (item : Json) : Option ClaimRecord :=
  (shape.foundAddress? item).map fun address =>
    ⟨address, shape.foundTime? item, balanceOf item denom⟩

/-- The shape and the items of the list of a body: those under `claims`, or else of the first array
under the other keys. -/
def foundItems (body : Json) : Shape × List Json :=
  match (body.member? "claims").bind Json.array? with
  | some items => (.claims, items)
  | none =>
    (.general, (generalKeys.findSome? fun key => (body.member? key).bind Json.array?).getD [])

/-- The claims to be found in a body. -/
def foundRecords (denom : String) (body : Json) : List ClaimRecord :=
  (foundItems body).2.filterMap (foundRecord? (foundItems body).1 denom)

/-- The list of a body is shadowed by a value that is no array. -/
def IsListShadowed (body : Json) : Prop :=
  (body.member? "claims").bind Json.array? = none ∧
    IsShadowed (fun key => body.member? key) Json.array? generalKeys

/-- The address of an item is shadowed by an empty text. -/
def Shape.IsAddressShadowed (shape : Shape) (item : Json) : Prop :=
  IsShadowed (textAt item) nonempty? shape.addressKeys

/-- The time of an item is shadowed by a value that denotes no time. -/
def Shape.IsTimeShadowed (shape : Shape) (item : Json) : Prop :=
  IsShadowed (fun key => item.member? key) timeOf shape.timeKeys

/-- Some claims of a body are shadowed: all of them, or the address or the time of one. -/
inductive LosesToShadow (denom : String) (body : Json) : Prop
  | list (h : IsListShadowed body) (hfound : foundRecords denom body ≠ [])
  | item {item : Json} {record : ClaimRecord} (hlist : ¬IsListShadowed body)
      (hitem : item ∈ (foundItems body).2)
      (hfound : foundRecord? (foundItems body).1 denom item = some record)
      (h : (foundItems body).1.IsAddressShadowed item ∨ (foundItems body).1.IsTimeShadowed item)

variable {shape : Shape} {denom : String} {item body : Json} {record : ClaimRecord}

/-! ### Items -/

theorem ofItem?_eq (shape : Shape) (denom : String) (item : Json) :
    ofItem? shape denom item =
      ((shape.addressKeys.findSome? (textAt item)).bind nonempty?).map fun address =>
        ⟨address, (shape.timeKeys.findSome? fun key => item.member? key).bind timeOf,
          balanceOf item denom⟩ := by
  show (shape.addressKeys.findSome? (textAt item)).bind _ = _
  cases shape.addressKeys.findSome? (textAt item) with
  | none => rfl
  | some address =>
    by_cases hempty : address = ""
    · simp [nonempty?, hempty]
    · simp [nonempty?, hempty]

/-- An item whose address is shadowed is left out. -/
theorem ofItem?_of_isAddressShadowed (h : shape.IsAddressShadowed item) :
    ofItem? shape denom item = none := by
  rw [ofItem?_eq, IsShadowed.bind_findSome?_eq_none h]
  rfl

/-- An item without an address is left out. -/
theorem ofItem?_of_foundRecord?_eq_none (h : foundRecord? shape denom item = none) :
    ofItem? shape denom item = none := by
  by_cases haddress : shape.IsAddressShadowed item
  · exact ofItem?_of_isAddressShadowed haddress
  · rw [ofItem?_eq, bind_findSome?_of_not_isShadowed haddress]
    have hnone : shape.foundAddress? item = none := Option.map_eq_none_iff.mp h
    exact Option.map_eq_none_iff.mpr hnone

/-- A time that is shadowed is unset. -/
theorem ofItem?_of_isTimeShadowed (hfound : foundRecord? shape denom item = some record)
    (haddress : ¬shape.IsAddressShadowed item) (htime : shape.IsTimeShadowed item) :
    ofItem? shape denom item = some { record with time := none } := by
  obtain ⟨address, hsome, rfl⟩ := Option.map_eq_some_iff.mp hfound
  rw [ofItem?_eq, bind_findSome?_of_not_isShadowed haddress,
    IsShadowed.bind_findSome?_eq_none htime]
  exact congrArg (Option.map _) hsome

/-- A claim that is not shadowed is found. -/
theorem ofItem?_of_not_isShadowed (haddress : ¬shape.IsAddressShadowed item)
    (htime : ¬shape.IsTimeShadowed item) :
    ofItem? shape denom item = foundRecord? shape denom item := by
  rw [ofItem?_eq, bind_findSome?_of_not_isShadowed haddress,
    bind_findSome?_of_not_isShadowed htime]
  rfl

/-- A claim is found exactly if neither its address nor its time is shadowed. -/
theorem ofItem?_eq_some_iff (hfound : foundRecord? shape denom item = some record) :
    ofItem? shape denom item = some record ↔
      ¬(shape.IsAddressShadowed item ∨ shape.IsTimeShadowed item) := by
  rw [not_or]
  constructor
  · intro h
    have haddress : ¬shape.IsAddressShadowed item := by
      intro haddress
      rw [ofItem?_of_isAddressShadowed haddress] at h
      exact nomatch h
    refine ⟨haddress, fun htime => ?_⟩
    obtain ⟨t, ht⟩ := IsShadowed.exists_found htime
    rw [ofItem?_of_isTimeShadowed hfound haddress htime] at h
    obtain ⟨address, -, rfl⟩ := Option.map_eq_some_iff.mp hfound
    have hunset : none = shape.foundTime? item := congrArg ClaimRecord.time (Option.some.inj h)
    exact nomatch hunset.trans ht
  · rintro ⟨haddress, htime⟩
    rw [ofItem?_of_not_isShadowed haddress htime, hfound]

/-! ### Lists -/

/-- The two shapes: the items of the list that is found are read one by one, unless it is shadowed. -/
theorem listOfJson_eq (hlist : ¬IsListShadowed body) :
    listOfJson denom body =
      (foundItems body).2.filterMap (ofItem? (foundItems body).1 denom) := by
  unfold listOfJson foundItems
  cases hclaims : (body.member? "claims").bind Json.array? with
  | some items => rfl
  | none =>
    have hkeys := bind_findSome?_of_not_isShadowed fun h => hlist ⟨hclaims, h⟩
    rw [hkeys]
    cases generalKeys.findSome? fun key => (body.member? key).bind Json.array? with
    | none => rfl
    | some items => rfl

/-- A list that is shadowed is read as empty. -/
theorem listOfJson_of_isListShadowed (hlist : IsListShadowed body) : listOfJson denom body = [] := by
  obtain ⟨hclaims, hkeys⟩ := hlist
  have hnone := hkeys.bind_findSome?_eq_none
  unfold listOfJson
  rw [hclaims, hnone]

theorem length_filterMap_le {α β : Type} {f g : α → Option β} {as : List α}
    (h : ∀ a ∈ as, g a = none → f a = none) :
    (as.filterMap f).length ≤ (as.filterMap g).length := by
  rw [List.length_filterMap_eq_countP, List.length_filterMap_eq_countP]
  refine List.countP_mono_left fun a ha hsome => ?_
  rw [← Option.ne_none_iff_isSome] at hsome ⊢
  exact mt (h a ha) hsome

/-- Of two functions, of which the second has a value wherever the first does, the values over a list
are the same only if they are at each of its items. -/
theorem filterMap_eq_filterMap_iff {α β : Type} {f g : α → Option β} {as : List α}
    (h : ∀ a ∈ as, g a = none → f a = none) :
    as.filterMap f = as.filterMap g ↔ ∀ a ∈ as, f a = g a := by
  constructor
  · intro heq
    induction as with
    | nil => exact nofun
    | cons a as ih =>
      obtain ⟨ha, has⟩ := List.forall_mem_cons.mp h
      have hlength := length_filterMap_le has
      cases hg : g a with
      | none =>
        rw [List.filterMap_cons_none hg, List.filterMap_cons_none (ha hg)] at heq
        exact List.forall_mem_cons.mpr ⟨(ha hg).trans hg.symm, ih has heq⟩
      | some b =>
        rw [List.filterMap_cons_some hg] at heq
        cases hf : f a with
        | none =>
          rw [List.filterMap_cons_none hf] at heq
          rw [heq, List.length_cons] at hlength
          omega
        | some b' =>
          rw [List.filterMap_cons_some hf] at heq
          obtain ⟨rfl, htail⟩ := List.cons.inj heq
          exact List.forall_mem_cons.mpr ⟨hf.trans hg.symm, ih has htail⟩
  · exact List.filterMap_congr

theorem listOfJson_eq_found_iff :
    listOfJson denom body = foundRecords denom body ↔ ¬LosesToShadow denom body := by
  by_cases hlist : IsListShadowed body
  · rw [listOfJson_of_isListShadowed hlist]
    constructor
    · rintro hfound (⟨_, hne⟩ | ⟨hnot, _⟩)
      · exact hne hfound.symm
      · exact hnot hlist
    · intro h
      by_contra hne
      exact h (.list hlist fun hfound => hne hfound.symm)
  · rw [listOfJson_eq hlist, foundRecords,
      filterMap_eq_filterMap_iff fun _ _ => ofItem?_of_foundRecord?_eq_none]
    constructor
    · rintro heach (⟨hshadowed, _⟩ | ⟨_, hitem, hfound, hshadowed⟩)
      · exact hlist hshadowed
      · exact (ofItem?_eq_some_iff hfound).mp ((heach _ hitem).trans hfound) hshadowed
    · intro h item hitem
      cases hfound : foundRecord? (foundItems body).1 denom item with
      | none => exact ofItem?_of_foundRecord?_eq_none hfound
      | some record =>
        exact (ofItem?_eq_some_iff hfound).mpr fun hshadowed => h (.item hlist hitem hfound hshadowed)

/-- **What is found and what is lost.** The claims of a text are those to be found in its value exactly
if none of them is shadowed. If the list is shadowed, there are none. Otherwise they are those of its
items, in order: an item without an address, or with one that is shadowed, has none, and the claim of
any other item is the one to be found, without its time if that is shadowed. Nothing is shadowed in the
items of a list under `claims`. -/
theorem listOfText_eq_found_iff {text : String} (h : Json.parse text = .ok body) (denom : String) :
    (listOfText denom text = .ok (foundRecords denom body) ↔ ¬LosesToShadow denom body) ∧
    (IsListShadowed body → listOfText denom text = .ok []) ∧
    (¬IsListShadowed body → listOfText denom text =
      .ok ((foundItems body).2.filterMap (ofItem? (foundItems body).1 denom))) ∧
    (∀ shape item, foundRecord? shape denom item = none → ofItem? shape denom item = none) ∧
    (∀ shape item record, foundRecord? shape denom item = some record →
      (shape.IsAddressShadowed item → ofItem? shape denom item = none) ∧
      (¬shape.IsAddressShadowed item → shape.IsTimeShadowed item →
        ofItem? shape denom item = some { record with time := none }) ∧
      (¬shape.IsAddressShadowed item → ¬shape.IsTimeShadowed item →
        ofItem? shape denom item = some record)) ∧
    ∀ item, ¬Shape.claims.IsAddressShadowed item ∧ ¬Shape.claims.IsTimeShadowed item := by
  have htext : listOfText denom text = .ok (listOfJson denom body) := by
    rw [listOfText, h]
    rfl
  refine ⟨?_, fun hlist => ?_, fun hlist => ?_, fun shape item => ofItem?_of_foundRecord?_eq_none,
    fun shape item record hfound => ⟨ofItem?_of_isAddressShadowed, ofItem?_of_isTimeShadowed hfound,
      fun haddress htime => ?_⟩,
    fun item => ⟨not_isShadowed_singleton _, not_isShadowed_singleton _⟩⟩
  · rw [htext, Except.ok.injEq, listOfJson_eq_found_iff]
  · rw [htext, listOfJson_of_isListShadowed hlist]
  · rw [htext, listOfJson_eq hlist]
  · rw [ofItem?_of_not_isShadowed haddress htime, hfound]

/-- A list whose first claim has no time under its first key and a time under the second, and whose
other claim has an address under the second key alone. -/
theorem listOfText_eq_found_iff_shadowed :
    let v : Json := .object [("list", .array [
      .object [("address", .string "a"), ("claim_time", .null), ("time", .string "5")],
      .object [("addr", .string "b")]])]
    Json.parse (compact v) = .ok v.sorted ∧ LosesToShadow "ulume" v.sorted ∧
      ofItem? .general "ulume" (.object [("addr", .string "b")]) = some ⟨"b", none, none⟩ := by
  intro v
  have hintegers : v.HasIntegers := by simp [v, HasIntegers, HaveIntegers, MembersHaveIntegers]
  have hparse : Json.parse (compact v) = .ok v.sorted :=
    parse_of_isText (by decide) (isText_compact hintegers)
  have hspec := listOfText_eq_found_iff hparse "ulume"
  refine ⟨hparse, ?_, ?_⟩
  · by_contra hnone
    have hfound := hspec.1.mpr hnone
    rw [listOfText, hparse] at hfound
    have hdiffer : listOfJson "ulume" v.sorted ≠ foundRecords "ulume" v.sorted := by decide +kernel
    exact hdiffer (Except.ok.inj hfound)
  · obtain ⟨-, -, -, -, hrecords, -⟩ := hspec
    exact (hrecords .general (.object [("addr", .string "b")]) ⟨"b", none, none⟩ (by decide)).2.2
      (not_isShadowed_of_forall (by decide)) (not_isShadowed_of_forall (by decide))

/-- Three texts some of whose claims are lost: a list that is shadowed by `null`, an address that is
shadowed by an empty text and a time that is shadowed by `null`. -/
theorem not_listOfText_eq_found :
    let hiddenList := "\x7b\"records\":null,\"list\":[\x7b\"address\":\"a\"\x7d]\x7d"
    let hiddenAddress := "\x7b\"list\":[\x7b\"address\":\"\",\"addr\":\"a\"\x7d]\x7d"
    let hiddenTime :=
      "\x7b\"list\":[\x7b\"address\":\"a\",\"claim_time\":null,\"time\":\"5\"\x7d]\x7d"
    let found (text : String) := ((Json.parse text).map (foundRecords "ulume")).toOption
    ((listOfText "ulume" hiddenList).toOption = some [] ∧
      found hiddenList = some [⟨"a", none, none⟩]) ∧
    ((listOfText "ulume" hiddenAddress).toOption = some [] ∧
      found hiddenAddress = some [⟨"a", none, none⟩]) ∧
    ((listOfText "ulume" hiddenTime).toOption = some [⟨"a", none, none⟩] ∧
      found hiddenTime = some [⟨"a", some ⟨5000000000, 0⟩, none⟩]) := by
  decide +kernel

end Circulation.ClaimRecord
