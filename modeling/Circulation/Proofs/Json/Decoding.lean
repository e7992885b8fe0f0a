import Circulation.Json.Record
import Circulation.Proofs.Except

/-!
# What decoders yield

A decoder is put together from smaller ones, and so is what is known of its results: what every item
of a list has, what a refined value has, and what the fields of a record give the record. None of it
depends on the text that is decoded, on the order of its members or on what else it holds.

## Main definitions

* `Circulation.Json.Decoder.Yields`, `Circulation.Json.Record.Yields` — what holds of a result.

## Main results

* `Circulation.Json.Record.Yields.seq`, `Circulation.Json.Record.Yields.decoder` — a record has what
  its fields give it.
* `Circulation.Json.Decoder.Yields.ofText` — what a text denotes has what the decoder yields.
-/

namespace Circulation.Json

variable {α β : Type} {p : α → Prop} {q : β → Prop}

namespace Decoder

/-- Whatever the node, what the decoder yields has the property. -/
def Yields (d : Decoder α) (p : α → Prop) : Prop :=
  ∀ n, Circulation.Yields (d n) p

theorem yields_wrongType (want : String) (n : Node) :
    Circulation.Yields (wrongType want n) p := by
  refine (Circulation.Yields.trivial _).bind fun got _ => ?_
  exact .error _

/-- A number of 32 bits has 32 bits. -/
theorem yields_nat32 : nat32.Yields (· < 4294967296) := by
  intro n
  have hinteger : Circulation.Yields (integer "u32" 0 4294967295 n) fun x => 0 ≤ x ∧ x ≤ 4294967295 := by
    unfold integer
    split
    · split
      · next h => exact .ok h
      · exact .error _
    · exact yields_wrongType _ _
  refine hinteger.map fun x hx => ?_
  obtain ⟨hfrom, hto⟩ := hx
  omega

/-- A value that is there has what the decoder yields. -/
theorem Yields.optional {d : Decoder α} (hd : d.Yields p) :
    (Decoder.optional d).Yields fun a? => ∀ a ∈ a?, p a := by
  intro n
  cases n with
  | null span => exact .ok fun a ha => absurd ha (by simp)
  | _ =>
    refine (hd _).map fun a ha b hb => ?_
    obtain rfl := Option.some.inj hb
    exact ha

/-- The items of a list have what the decoder yields. -/
theorem Yields.list {d : Decoder α} (hd : d.Yields p) :
    (Decoder.list d).Yields fun as => ∀ a ∈ as, p a := by
  intro n
  cases n with
  | array span items => exact .mapM fun item _ => hd item
  | _ => exact yields_wrongType _ _

/-- A refined value has what the refinement gives. -/
theorem yields_refine {d : Decoder α} {f : α → Except String β}
    (hf : ∀ a, Circulation.Yields (f a) q) : (d.refine f).Yields q := by
  intro n
  refine (Circulation.Yields.trivial _).bind fun a _ => ?_
  cases hfa : f a with
  | ok b => exact .ok (hf a b hfa)
  | error why =>
    refine (Circulation.Yields.trivial _).bind fun got _ => ?_
    exact .error _

/-- What a text denotes has what the decoder yields. -/
theorem Yields.ofText {d : Decoder α} (hd : d.Yields p) (s : String) :
    Circulation.Yields (d.ofText s) p := by
  unfold Decoder.ofText
  dsimp only
  cases hroot : d (read s).root with
  | error problem => exact .error _
  | ok a =>
    cases (read s).trailing with
    | some fault => exact .error _
    | none => exact .ok (hd _ a hroot)

end Decoder

namespace Record

/-- Whatever fields are present, the record that they make up has the property. -/
def Yields (r : Record α) (p : α → Prop) : Prop :=
  ∀ present, Circulation.Yields (r.build present) p

theorem yields_field {name : String} {otherNames : List String} {d : Decoder α}
    {default? : Form → Option α} (hd : d.Yields p) (hdefault : ∀ form, ∀ a ∈ default? form, p a) :
    (field name otherNames d default?).Yields p := by
  intro present
  unfold field
  dsimp only
  cases present.node? name with
  | some n => exact hd n
  | none =>
    cases hform : default? present.form with
    | some a => exact .ok (hdefault _ a hform)
    | none => exact .error _

theorem yields_defaulted {name : String} {d : Decoder α} {default : α} (hd : d.Yields p)
    (hdefault : p default) : (defaulted name d default).Yields p := by
  refine yields_field hd fun _ a ha => ?_
  obtain rfl := Option.some.inj ha
  exact hdefault

namespace Yields

theorem trivial (r : Record α) : r.Yields fun _ => True :=
  fun _ _ _ => True.intro

/-- A record has what a field gives it on top of the fields before. -/
theorem seq {f : Record (α → β)} {x : Record α} (hf : f.Yields fun g => ∀ a, p a → q (g a))
    (hx : x.Yields p) : (f <*> x).Yields q := by
  intro present
  refine (hf present).bind fun g hg => (hx present).bind fun a ha => ?_
  exact .ok (hg a ha)

theorem map {f : α → β} {x : Record α} (hx : x.Yields p) (hf : ∀ a, p a → q (f a)) :
    (f <$> x).Yields q :=
  seq (fun _ => .ok hf) hx

/-- What is decoded as a record has what its fields give it. -/
theorem decoder {r : Record α} (hr : r.Yields p) (name : String) : (r.decoder name).Yields p := by
  intro n
  cases n with
  | object span members =>
    exact (Circulation.Yields.trivial _).bind fun _ _ => hr _
  | array span items =>
    refine (Circulation.Yields.trivial _).bind fun _ _ => ?_
    refine (hr _).bind fun a ha => ?_
    cases items.drop r.fields.length with
    | nil => exact .ok ha
    | cons item items => exact .error _
  | _ => exact Decoder.yields_wrongType _ _

end Yields

end Record

end Circulation.Json
