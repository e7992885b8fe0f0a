import Circulation.Proofs.Claim.Seconds
import Circulation.Proofs.Json.Agreement
import Circulation.Proofs.Lock.OtherCoins

/-!
# Coins of other denominations in a claim list

The amount of a claim is that of the first coin of the denomination in its balance. Coins of other
denominations may be put into any balance of a body, taken out of it or changed: the records are the
same, and a body that denotes none for another reason still denotes none.

## Main definitions

* `Circulation.Json.IsOtherCoin` — a coin of another denomination, with any other fields.
* `Circulation.Json.CoinsAgree` — arrays that differ in coins of other denominations only.
* `Circulation.ClaimRecord.BodiesAgree` — bodies that differ in such coins in balances only.

## Main results

* `Circulation.Json.CoinsAgree.rel_value?` — the amount of a denomination in an array of coins.
* `Circulation.ClaimRecord.BodiesAgree.toOption_listOfText` — bodies that agree have the same records.
-/

namespace Circulation

theorem mapM_cons_of_eq_some {α β : Type} {f : α → Option β} {a : α} {b : β} (h : f a = some b)
    (as : List α) : (a :: as).mapM f = (as.mapM f).map (b :: ·) := by
  rw [List.mapM_cons, h]
  cases as.mapM f <;> rfl

/-- Steps that end well for foreign elements, and in foreign results, differ in foreign results only. -/
theorem AgreeBeside.rel_mapM {α β : Type} {foreign : α → Prop} {foreign' : β → Prop}
    {f : α → Option β} (hf : ∀ a, foreign a → ∃ b, f a = some b ∧ foreign' b) {as bs : List α}
    (h : AgreeBeside foreign as bs) : Option.Rel (AgreeBeside foreign') (as.mapM f) (bs.mapM f) := by
  induction h with
  | nil => exact .some .nil
  | @same a as bs _ ih =>
    cases ha : f a with
    | none =>
      rw [List.mapM_cons, List.mapM_cons, ha]
      exact .none
    | some b =>
      rw [mapM_cons_of_eq_some ha, mapM_cons_of_eq_some ha]
      exact Json.rel_map ih fun _ _ => .same b
  | @left a as bs ha _ ih =>
    obtain ⟨b, hb, hforeign⟩ := hf a ha
    rw [mapM_cons_of_eq_some hb, ← @Option.map_id' _ (bs.mapM f)]
    exact Json.rel_map ih fun _ _ => .left hforeign
  | @right b as bs hb _ ih =>
    obtain ⟨c, hc, hforeign⟩ := hf b hb
    rw [mapM_cons_of_eq_some hc, ← @Option.map_id' _ (as.mapM f)]
    exact Json.rel_map ih fun _ _ => .right hforeign

namespace Json

/-! ### Arrays of coins -/

/-- A coin of another denomination: an object whose denomination and whose amount are texts, among any
other fields that are not nested too deeply to be read. -/
inductive IsOtherCoin (denom : String) : Tree → Prop
  | object {ms : List (String × Json)} {other amount : String}
      (hdenom : Has ms "denom" (some (.string other))) (hne : other ≠ denom)
      (hamount : Has ms "amount" (some (.string amount)))
      (hdepth : (Tree.ofJson (.object ms)).depth + 5 ≤ depthLimit) :
      IsOtherCoin denom (.ofJson (.object ms))

/-- Arrays that differ in coins of other denominations only. -/
inductive CoinsAgree (denom : String) : Tree → Tree → Prop
  | array {ts ts' : List Tree} (h : AgreeBeside (IsOtherCoin denom) ts ts') :
      CoinsAgree denom (.array ts) (.array ts')

/-- The amount of a denomination in an array of coins. -/
def amountIn (denom : String) (v : Json) : Option Nat :=
  v.array?.bind fun coins =>
    (coins.find? fun c => ClaimRecord.denomOf c == some denom).bind fun coin =>
      ((coin.member? "amount").bind Json.string?).bind fun text =>
        if text = "" then none else (Amount.parse text).toOption

variable {denom : String}

/-- Arrays that agree hold the same amount of the denomination, if they are values at all. -/
theorem CoinsAgree.rel_value? {room : Nat} (hroom : depthLimit ≤ room + 5) {t t' : Tree}
    (h : CoinsAgree denom t t') :
    Option.Rel (fun v w => amountIn denom v = amountIn denom w) (t.value? (room + 1))
      (t'.value? (room + 1)) := by
  obtain ⟨hcoins⟩ := h
  have hother : ∀ t, IsOtherCoin denom t →
      ∃ v, t.value? room = some v ∧ ClaimRecord.denomOf v ≠ some denom := by
    rintro _ ⟨hdenom, hne, -, hdepth⟩
    exact ⟨_, Tree.value?_ofJson (by omega), (ClaimRecord.IsOtherCoin.object hdenom hne).denomOf_ne⟩
  rw [Tree.value?_array, Tree.value?_array]
  refine rel_map (hcoins.rel_mapM hother) fun vs ws hagree => ?_
  have hfind := hagree.find?_eq (p := fun v => ClaimRecord.denomOf v == some denom)
    fun _ hv => beq_false_of_ne hv
  simp only [amountIn, array?, Option.bind_some, hfind]

end Json

namespace ClaimRecord

open Json

variable {denom : String}

/-! ### Bodies -/

/-- Items that differ in coins of other denominations in their balances only. -/
abbrev ItemAgrees (denom : String) : Tree → Tree → Prop :=
  AgreesWithin fun key t t' => key = "balance" ∧ CoinsAgree denom t t'

/-- Bodies that differ in coins of other denominations in the balances of items only, whatever the key
of the items is. -/
abbrev BodiesAgree (denom : String) : Tree → Tree → Prop :=
  AgreesWithin fun _ => ItemsAgree (ItemAgrees denom)

theorem balanceOf_eq (item : Json) (denom : String) :
    balanceOf item denom = (item.member? "balance").bind (amountIn denom) := by
  unfold balanceOf amountIn
  simp only [Option.bind_eq_bind, Option.bind_assoc]
  rfl

/-- What two values of a key of an item have in common: they are the same, but for a balance, of which
only the amount counts. -/
def SameField (denom key : String) (v w : Json) : Prop :=
  if key = "balance" then amountIn denom v = amountIn denom w else v = w

theorem sameField_refl (key : String) (v : Json) : SameField denom key v v := by
  unfold SameField
  split_ifs <;> rfl

/-- Items that yield the same record in either shape. -/
def SameRecord (denom : String) (v w : Json) : Prop :=
  ∀ shape ∈ [Shape.claims, Shape.general], ofItem? shape denom v = ofItem? shape denom w

/-- Items with the same fields yield the same record. -/
theorem sameRecord_of_rel {v w : Json}
    (h : ∀ key, Option.Rel (SameField denom key) (v.member? key) (w.member? key)) :
    SameRecord denom v w := by
  have hbalance : balanceOf v denom = balanceOf w denom := by
    rw [balanceOf_eq, balanceOf_eq]
    exact bind_eq_of_rel (h "balance") fun _ _ hvalue => hvalue
  have hother : ∀ key, key ≠ "balance" → v.member? key = w.member? key := by
    rintro key hkey
    have hrel := h key
    generalize v.member? key = v? at hrel
    generalize w.member? key = w? at hrel
    cases hrel with
    | none => rfl
    | some hvalue => exact congrArg some ((if_neg hkey).mp hvalue)
  have hapart : ∀ shape ∈ [Shape.claims, Shape.general],
      "balance" ∉ shape.addressKeys ∧ "balance" ∉ shape.timeKeys := by
    simp [Shape.claims, Shape.general]
  rintro shape hshape
  obtain ⟨haddress, htime⟩ := hapart shape hshape
  have haddresses : shape.addressKeys.findSome? (textAt v) = shape.addressKeys.findSome? (textAt w) :=
    findSome?_congr fun key hkey =>
      congrArg (·.bind Json.string?) (hother key (ne_of_mem_of_not_mem hkey haddress))
  have htimes : shape.timeKeys.findSome? (fun key => v.member? key) =
      shape.timeKeys.findSome? fun key => w.member? key :=
    findSome?_congr fun key hkey => hother key (ne_of_mem_of_not_mem hkey htime)
  rw [ofItem?_eq, ofItem?_eq, haddresses, htimes, hbalance]

theorem ItemAgrees.rel_value? {room : Nat} (hroom : depthLimit ≤ room + 5) {t t' : Tree}
    (h : ItemAgrees denom t t') :
    Option.Rel (SameRecord denom) (t.value? (room + 2)) (t'.value? (room + 2)) := by
  have hfields : ∀ key t t', key = "balance" ∧ CoinsAgree denom t t' →
      Option.Rel (SameField denom key) (t.value? (room + 1)) (t'.value? (room + 1)) := by
    rintro key t t' ⟨rfl, hcoins⟩
    exact hcoins.rel_value? hroom
  exact rel_imp (AgreesWithin.rel_value? h sameField_refl hfields) fun _ _ => sameRecord_of_rel

/-- Lists of items that yield the same records in either shape. -/
def SameRecords (denom : String) (v w : Json) : Prop :=
  ∀ shape ∈ [Shape.claims, Shape.general], recordsOf shape denom v = recordsOf shape denom w

theorem sameRecords_of_arraysAgree {v w : Json} (h : ArraysAgree (SameRecord denom) v w) :
    SameRecords denom v w := by
  obtain ⟨hitems⟩ := h
  rintro shape hshape
  simp only [recordsOf, array?, Option.map_some]
  congr 1
  induction hitems with
  | nil => rfl
  | cons hitem _ ih => rw [List.filterMap_cons, List.filterMap_cons, hitem shape hshape, ih]

/-- Bodies with lists of the same records under every key have the same records. -/
theorem listOfJson_eq_of_rel {v w : Json}
    (h : ∀ key, Option.Rel (SameRecords denom) (v.member? key) (w.member? key)) :
    listOfJson denom v = listOfJson denom w := by
  have hclaims : (v.member? "claims").bind (recordsOf .claims denom) =
      (w.member? "claims").bind (recordsOf .claims denom) :=
    bind_eq_of_rel (h "claims") fun _ _ hlist => hlist .claims (by simp)
  have hgeneral : (generalKeys.findSome? fun key => v.member? key).bind (recordsOf .general denom) =
      (generalKeys.findSome? fun key => w.member? key).bind (recordsOf .general denom) :=
    bind_eq_of_rel (rel_findSome? fun key _ => h key) fun _ _ hlist => hlist .general (by simp)
  rw [listOfJson_eq_or, listOfJson_eq_or, hclaims, hgeneral]

/-- **Bodies that agree** have the same records, or both have none. -/
theorem BodiesAgree.toOption_listOfText {t t' : Tree} {text text' : String}
    (h : BodiesAgree denom t t') (htext : t.IsText text) (htext' : t'.IsText text') :
    (listOfText denom text).toOption = (listOfText denom text').toOption := by
  -- the coins of a balance lie below the body, a list, an item and the balance
  obtain ⟨room, hroom⟩ : ∃ room, depthLimit = room + 5 := ⟨123, rfl⟩
  have hlists : ∀ (_ : String) (t t' : Tree), ItemsAgree (ItemAgrees denom) t t' →
      Option.Rel (SameRecords denom) (t.value? (room + 3)) (t'.value? (room + 3)) :=
    fun _ _ _ hlist => rel_imp (hlist.rel_value? fun _ _ hitem => hitem.rel_value? hroom.le)
      fun _ _ => sameRecords_of_arraysAgree
  have hbodies := AgreesWithin.rel_value? h (fun _ _ _ _ => rfl) hlists
  rw [listOfText, listOfText, toOption_map, toOption_map, toOption_parse htext,
    toOption_parse htext', hroom]
  exact map_eq_of_rel hbodies fun _ _ => listOfJson_eq_of_rel

end ClaimRecord

end Circulation
