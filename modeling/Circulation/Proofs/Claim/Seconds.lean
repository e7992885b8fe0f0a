import Circulation.Proofs.Claim.Times
import Circulation.Proofs.Json.Canonical
import Circulation.Proofs.Json.Integers

/-!
# Seconds as numbers and as texts

A number of seconds may be stated as a number or as a text of the same characters. A claim takes the
same time from both, none where the seconds are zero or where no supported instant has so many. What a
body denotes therefore does not change when the time of one of its items is put between quotes.

Negative seconds are an exception where a supported instant before 1970 has them: the text denotes that
instant, the number none. A literal that is too large for a number is another, since a body with it
denotes nothing at all.

## Main definitions

* `Circulation.ClaimRecord.TimePlace` — the place of a time in a body.
* `Circulation.Json.ReadsAlike` — values that cannot be told apart by how they are read.

## Main results

* `Circulation.ClaimRecord.timeOf_number`, `Circulation.ClaimRecord.timeOf_numeral` — what a claim takes
  from a number of seconds and from a text.
* `Circulation.ClaimRecord.listOfText_quoted` — a time may be put between quotes.
* `Circulation.ClaimRecord.not_listOfText_quoted` — the two exceptions.
-/

namespace Circulation

open Json

/-! ### Times -/

namespace ClaimRecord

variable {z : Int} {l : Number.Literal} {cs : List Char} {n : Number}

/-- **The time of a number** of seconds: there is none unless the number is positive. -/
theorem timeOf_number (h : Grammar.IntegerLiteral z l cs) (hread : Number.ofLiteral l = .ok n) :
    timeOf (.number n) = if 0 < z then Instant.ofUnixSeconds? z else none := by
  simp only [timeOf]
  obtain heq | ⟨hz, hn⟩ | ⟨hz, hn⟩ := h.toInt64_of_read hread
  · rw [heq]
  · rw [if_pos (by omega), if_pos (by omega), Instant.ofUnixSeconds?_eq_none (by omega),
      Instant.ofUnixSeconds?_eq_none (by omega)]
  · rw [if_neg (by omega), if_neg (by omega)]

/-- **The time of a numeral** of seconds: there is none if it is that of zero. -/
theorem timeOf_numeral {s : String} (hs : Numeral.IsIntegerText z s.toList) :
    timeOf (.string s) = if z = 0 then none else Instant.ofUnixSeconds? z := by
  obtain ⟨why, hwhy⟩ := Instant.exists_parse_eq_error (hs.trimChars_eq.symm ▸ hs.integer?)
  rw [timeOf_string_of_error hwhy, Instant.join_ofUnixText hs]

/-- A literal and its characters as a text denote the same time, unless they state an instant before
1970. -/
theorem timeOf_number_eq_timeOf_string (h : Grammar.IntegerLiteral z l cs)
    (hread : Number.ofLiteral l = .ok n) (hnegative : z < 0 → Instant.ofUnixSeconds? z = none) :
    timeOf (.number n) = timeOf (.string (String.ofList cs)) := by
  have htext : Numeral.IsIntegerText z (String.ofList cs).toList := by
    rw [String.toList_ofList]
    exact h.isIntegerText
  rw [timeOf_number h hread, timeOf_numeral htext]
  obtain hz | hz | hz := lt_trichotomy z 0
  · rw [if_neg (by omega), if_neg (by omega), hnegative hz]
  · rw [if_neg (by omega), if_pos hz]
  · rw [if_pos hz, if_neg (by omega)]

end ClaimRecord

/-! ### Values that are read alike -/

theorem findSome?_congr {α β : Type} {f g : α → Option β} {as : List α} (h : ∀ a ∈ as, f a = g a) :
    as.findSome? f = as.findSome? g := by
  induction as with
  | nil => rfl
  | cons a as ih =>
    obtain ⟨ha, has⟩ := List.forall_mem_cons.mp h
    rw [List.findSome?_cons, List.findSome?_cons, ha, ih has]

section ReadsAlike

variable {α : Type} {reads : Json → Option α}

/-- Values that are the same, or that are both there and read as the same. -/
inductive Json.ReadsAlike (reads : Json → Option α) : Option Json → Option Json → Prop
  | same (v? : Option Json) : ReadsAlike reads v? v?
  | read {v w : Json} (h : reads v = reads w) : ReadsAlike reads (some v) (some w)

theorem Json.ReadsAlike.bind_eq {v? w? : Option Json} (h : ReadsAlike reads v? w?) :
    v?.bind reads = w?.bind reads := by
  cases h with
  | same => rfl
  | read h => exact h

/-- A search under several keys stops in both places at the same key. -/
theorem Json.ReadsAlike.bind_findSome?_eq {keys : List String} {finds finds' : String → Option Json}
    (h : ∀ key ∈ keys, ReadsAlike reads (finds key) (finds' key)) :
    (keys.findSome? finds).bind reads = (keys.findSome? finds').bind reads := by
  induction keys with
  | nil => rfl
  | cons key keys ih =>
    obtain ⟨hkey, hkeys⟩ := List.forall_mem_cons.mp h
    rw [List.findSome?_cons, List.findSome?_cons]
    generalize finds key = v? at hkey
    generalize finds' key = w? at hkey
    cases hkey with
    | same v? =>
      cases v? with
      | none => exact ih hkeys
      | some v => rfl
    | read hread => exact hread

section Replacement

variable {before after : List (String × Json)} {key key' : String} {v w : Json}

/-- Another value for one member changes what an object has for the key of the member, if anything, and
there only to another value. -/
theorem Json.readsAlike_member? (h : key' = key → reads v.sorted = reads w.sorted) :
    ReadsAlike reads ((Json.object (before ++ (key, v) :: after)).sorted.member? key')
      ((Json.object (before ++ (key, w) :: after)).sorted.member? key') := by
  simp only [member?_sorted_object, List.filter_append, List.getLast?_append]
  by_cases hkey : key = key'
  · subst hkey
    have hkept : ∀ u : Json, ((key, u) :: after).filter (fun m => m.1 == key) =
        (key, u) :: after.filter fun m => m.1 == key :=
      fun u => List.filter_cons_of_pos (beq_self_eq_true key)
    rw [hkept, hkept, List.getLast?_cons, List.getLast?_cons]
    cases (after.filter fun m => m.1 == key).getLast? with
    | none => exact .read (h rfl)
    | some m => exact .same _
  · have hne : (key == key') = false := beq_false_of_ne hkey
    rw [List.filter_cons_of_neg (by simp [hne]), List.filter_cons_of_neg (by simp [hne])]
    exact .same _

theorem Json.member?_sorted_of_ne (hne : key' ≠ key) :
    (Json.object (before ++ (key, v) :: after)).sorted.member? key' =
      (Json.object (before ++ (key, w) :: after)).sorted.member? key' := by
  have halike : ReadsAlike some ((Json.object (before ++ (key, v) :: after)).sorted.member? key')
      ((Json.object (before ++ (key, w) :: after)).sorted.member? key') :=
    readsAlike_member? fun h => absurd h hne
  simpa only [Option.bind_fun_some] using halike.bind_eq

end Replacement

end ReadsAlike

namespace ClaimRecord

/-! ### Places of times -/

/-- The place of a time in a body: its key, and what else there is in the item, in the list of items
and in the body. -/
structure TimePlace where
  key : String
  itemBefore : List (String × Json)
  itemAfter : List (String × Json)
  listKey : String
  itemsBefore : List Json
  itemsAfter : List Json
  bodyBefore : List (String × Json)
  bodyAfter : List (String × Json)

namespace TimePlace

/-- The item with a time in its place. -/
def item (place : TimePlace) (time : Json) : Json :=
  .object (place.itemBefore ++ (place.key, time) :: place.itemAfter)

/-- The list of items with a time in its place. -/
def items (place : TimePlace) (time : Json) : List Json :=
  place.itemsBefore ++ place.item time :: place.itemsAfter

/-- The body with a time in its place. -/
def body (place : TimePlace) (time : Json) : Json :=
  .object (place.bodyBefore ++ (place.listKey, .array (place.items time)) :: place.bodyAfter)

variable {place : TimePlace} {v w : Json}

/-- A body with another time is nested as deeply. -/
theorem depth_body (h : (Tree.ofJson v).depth = (Tree.ofJson w).depth) :
    (Tree.ofJson (place.body v)).depth = (Tree.ofJson (place.body w)).depth := by
  simp only [body, items, item, Tree.ofJson, Tree.ofMembers_eq_map, Tree.ofItems_eq_map, List.map_append,
    List.map_cons, Tree.depth, Tree.depthMembers_append, Tree.depthItems_append, Tree.depthMembers,
    Tree.depthItems, h]

/-- The record of an item depends on its time only by what it denotes. -/
theorem ofItem?_item {shape : Shape} (hkey : place.key ∉ "balance" :: shape.addressKeys)
    (h : timeOf v.sorted = timeOf w.sorted) (denom : String) :
    ofItem? shape denom (place.item v).sorted = ofItem? shape denom (place.item w).sorted := by
  have hother : ∀ key ∈ "balance" :: shape.addressKeys,
      (place.item v).sorted.member? key = (place.item w).sorted.member? key :=
    fun key hmem => member?_sorted_of_ne fun heq => hkey (heq ▸ hmem)
  obtain ⟨hbalance, haddress⟩ := List.forall_mem_cons.mp hother
  have haddresses : shape.addressKeys.findSome? (textAt (place.item v).sorted) =
      shape.addressKeys.findSome? (textAt (place.item w).sorted) :=
    findSome?_congr fun key hmem => congrArg (·.bind Json.string?) (haddress key hmem)
  have htimes : (shape.timeKeys.findSome? fun key => (place.item v).sorted.member? key).bind timeOf =
      (shape.timeKeys.findSome? fun key => (place.item w).sorted.member? key).bind timeOf :=
    ReadsAlike.bind_findSome?_eq fun _ _ => readsAlike_member? fun _ => h
  have hbalances : balanceOf (place.item v).sorted denom = balanceOf (place.item w).sorted denom := by
    rw [balanceOf, hbalance, ← balanceOf]
  rw [ofItem?_eq, ofItem?_eq, haddresses, htimes, hbalances]

end TimePlace

/-! ### Bodies -/

/-- The records of a value that is a list of items. -/
def recordsOf (shape : Shape) (denom : String) (v : Json) : Option (List ClaimRecord) :=
  v.array?.map (·.filterMap (ofItem? shape denom))

/-- The records of a body are those of its list in one shape, or else of that in the other. -/
theorem listOfJson_eq_or (denom : String) (body : Json) :
    listOfJson denom body =
      (((body.member? "claims").bind (recordsOf .claims denom)).or
        ((generalKeys.findSome? fun key => body.member? key).bind (recordsOf .general denom))).getD [] := by
  have hrecords : ∀ (shape : Shape) (v? : Option Json), v?.bind (recordsOf shape denom) =
      (v?.bind Json.array?).map (·.filterMap (ofItem? shape denom)) :=
    fun shape v? => Option.map_bind.symm
  rw [hrecords, hrecords, listOfJson]
  cases (body.member? "claims").bind Json.array? with
  | some items => rfl
  | none => cases (generalKeys.findSome? fun key => body.member? key).bind Json.array? <;> rfl

namespace TimePlace

variable {place : TimePlace} {v w : Json}

theorem recordsOf_items {shape : Shape} (hkey : place.key ∉ "balance" :: shape.addressKeys)
    (h : timeOf v.sorted = timeOf w.sorted) (denom : String) :
    recordsOf shape denom (Json.array (place.items v)).sorted =
      recordsOf shape denom (Json.array (place.items w)).sorted := by
  simp only [recordsOf, array?_sorted, Option.map_some, items, List.map_append, List.map_cons,
    List.filterMap_append, List.filterMap_cons, ofItem?_item hkey h]

/-- The records of a body depend on a time in it only by what the time denotes. -/
theorem listOfJson_body (hkey : place.key ∈ Shape.claims.timeKeys ++ Shape.general.timeKeys)
    (h : timeOf v.sorted = timeOf w.sorted) (denom : String) :
    listOfJson denom (place.body v).sorted = listOfJson denom (place.body w).sorted := by
  have hapart : ∀ key ∈ Shape.claims.timeKeys ++ Shape.general.timeKeys,
      key ∉ "balance" :: Shape.claims.addressKeys ∧ key ∉ "balance" :: Shape.general.addressKeys := by
    decide
  obtain ⟨hclaims, hgeneral⟩ := hapart _ hkey
  have hlist : ∀ {shape : Shape}, place.key ∉ "balance" :: shape.addressKeys → ∀ key,
      ReadsAlike (recordsOf shape denom) ((place.body v).sorted.member? key)
        ((place.body w).sorted.member? key) :=
    fun hkey key => readsAlike_member? fun _ => recordsOf_items hkey h denom
  rw [listOfJson_eq_or, listOfJson_eq_or, (hlist hclaims "claims").bind_eq,
    ReadsAlike.bind_findSome?_eq fun key _ => hlist hgeneral key]

end TimePlace

/-- **A time may be put between quotes.** A literal without point and exponent that can be read as a
number, and is not that of an instant before 1970, denotes the same time as the text of its characters,
and a body denotes the same records with either of them in the place of a time. -/
theorem listOfText_quoted {z : Int} {l : Number.Literal} {cs : List Char} {n : Number}
    (h : Grammar.IntegerLiteral z l cs) (hread : Number.ofLiteral l = .ok n)
    (hnegative : z < 0 → Instant.ofUnixSeconds? z = none) :
    (∀ r, Grammar.Value (.number n) (cs ++ r) r) ∧
    timeOf (.number n) = timeOf (.string (String.ofList cs)) ∧
    ∀ (place : TimePlace) (denom : String) {text quoted : String},
      place.key ∈ Shape.claims.timeKeys ++ Shape.general.timeKeys →
      (Tree.ofJson (place.body (.number n))).depth < depthLimit →
      (Tree.ofJson (place.body (.number n))).IsText text →
      (Tree.ofJson (place.body (.string (String.ofList cs)))).IsText quoted →
      ∃ records, listOfText denom text = .ok records ∧ listOfText denom quoted = .ok records := by
  have htime := timeOf_number_eq_timeOf_string h hread hnegative
  refine ⟨fun r => ?_, htime, ?_⟩
  · have hvalue : Grammar.Value (.ofLiteral l) (cs ++ r) r := .number h.numeral
    rwa [Tree.ofLiteral, hread] at hvalue
  · intro place denom text quoted hkey hdepth htext hquoted
    refine ⟨_, by rw [listOfText, parse_of_isText hdepth htext]; rfl, ?_⟩
    have hdepths : (Tree.ofJson (place.body (.number n))).depth =
        (Tree.ofJson (place.body (.string (String.ofList cs)))).depth := TimePlace.depth_body rfl
    have hrecords : listOfJson denom (place.body (.number n)).sorted =
        listOfJson denom (place.body (.string (String.ofList cs))).sorted :=
      TimePlace.listOfJson_body (v := .number n) (w := .string (String.ofList cs)) hkey htime denom
    rw [listOfText, parse_of_isText (hdepths ▸ hdepth) hquoted, hrecords]
    rfl

/-- A time that is stated twice in an item, of which the later counts. -/
theorem listOfText_quoted_repeated :
    let cs := ['1', '7', '0', '0', '0', '0', '0', '0', '0', '0']
    let place : TimePlace := ⟨"time", [("addr", .string "a"), ("time", .null)], [("note", .null)],
      "list", [.null], [.object [("address", .string "b")]], [("page", .null)], []⟩
    Grammar.IntegerLiteral 1700000000 ⟨false, cs, none, none⟩ cs ∧
    Number.ofLiteral ⟨false, cs, none, none⟩ = .ok (.int 1700000000) ∧
    ∃ records, listOfText "ulume" (compact (place.body (.number (.int 1700000000)))) = .ok records ∧
      listOfText "ulume" (compact (place.body (.string (String.ofList cs)))) = .ok records := by
  intro cs place
  have hdigits : Grammar.Whole cs := .digits (by decide) (by decide) (by simp)
  have hliteral : Grammar.IntegerLiteral 1700000000 ⟨false, cs, none, none⟩ cs := .natural hdigits
  have hread : Number.ofLiteral ⟨false, cs, none, none⟩ = .ok (.int 1700000000) := by decide
  have hquoted := listOfText_quoted hliteral hread (by decide)
  refine ⟨hliteral, hread, hquoted.2.2 place "ulume" (by decide) (by decide) (isText_compact ?_)
    (isText_compact ?_)⟩
  · simp [place, TimePlace.body, TimePlace.items, TimePlace.item, HasIntegers, HaveIntegers,
      MembersHaveIntegers, Number.IsInteger, Number.wordLimit]
  · simp [place, TimePlace.body, TimePlace.items, TimePlace.item, HasIntegers, HaveIntegers,
      MembersHaveIntegers]

/-- The text of a body with a single item, whose time is written like this. -/
def textOfTime (time : List Char) : String :=
  String.ofList ("\x7b\"claims\":[\x7b\"destAddress\":\"a\",\"claimTime\":".toList ++ time ++
    "\x7d]\x7d".toList)

/-- Two literals that denote something else between quotes: one of seconds before 1970, which denotes no
time as a number, and one that is too large for a number, with which a body denotes nothing. -/
theorem not_listOfText_quoted :
    (listOfText "ulume" (textOfTime "-5".toList)).toOption = some [⟨"a", none, none⟩] ∧
    (listOfText "ulume" (textOfTime "\"-5\"".toList)).toOption =
      some [⟨"a", some ⟨-5000000000, 0⟩, none⟩] ∧
    (listOfText "ulume" (textOfTime (List.replicate 310 '9'))).toOption = none ∧
    (listOfText "ulume" (textOfTime ('"' :: (List.replicate 310 '9' ++ ['"'])))).toOption.map
      List.length = some 1 := by
  refine ⟨by decide +kernel, by decide +kernel, ?_, ?_⟩
  -- the characters of a long text are not to be decoded from it again
  · unfold textOfTime
    rw [listOfText, parse, Decoder.ofText, Json.read, readWithin, String.toList_ofList]
    decide +kernel
  · unfold textOfTime
    rw [listOfText, parse, Decoder.ofText, Json.read, readWithin, String.toList_ofList]
    decide +kernel

end ClaimRecord

end Circulation
