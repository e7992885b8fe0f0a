import Circulation.Proofs.Snapshot.Balance
import Circulation.Proofs.Text.Order

/-!
# The figures of a tag

The tag of a snapshot is the digest of its figures, each but the last followed by a zero byte. The
figures can be told apart from the right: the height is written without a zero byte, and so are the
three amounts, so each ends at the last zero byte before it. What is left is the denomination, which
may be any text. Hence the digested bytes determine the figures.

## Main definitions

* `Circulation.Text.IsNullFree` — a text without the null character.

## Main results

* `Circulation.Text.zero_mem_utf8_iff` — only the null character has a zero byte.
* `Circulation.ETag.bytes_eq_iff` — the digested bytes determine the figures of a tag.
* `Circulation.Snapshot.bytes_eq_bytes_iff` — two snapshots digest the same bytes only if their figures
  agree.
-/

namespace Circulation

namespace Text

/-- A text without the null character. -/
def IsNullFree (s : String) : Prop :=
  '\x00' ∉ s.toList

instance (s : String) : Decidable (IsNullFree s) :=
  inferInstanceAs (Decidable (_ ∉ _))

/-- Only the null character has a zero byte: the bytes of any other character hold a part of its code
point that is not zero, or begin with the mark of their place. -/
theorem zero_mem_utf8EncodeChar_iff {c : Char} : 0 ∈ String.utf8EncodeChar c ↔ c = '\x00' := by
  constructor
  · intro h
    have hlt := toNat_lt c
    have hzero : (0 : UInt8) = UInt8.ofNat 0 := rfl
    refine Char.ext (UInt32.toNat_inj.mp ?_)
    show c.val.toNat = 0
    unfold String.utf8EncodeChar at h
    dsimp only at h
    generalize c.val.toNat = n at *
    rw [hzero] at h
    split_ifs at h
    all_goals
      simp (disch := omega) only [List.mem_cons, List.not_mem_nil, or_false, ofNat_inj] at h
      omega
  · rintro rfl
    decide

theorem zero_mem_utf8_iff {s : String} : 0 ∈ utf8 s ↔ '\x00' ∈ s.toList := by
  simp [utf8_eq_flatMap, List.mem_flatMap, zero_mem_utf8EncodeChar_iff]

theorem IsNullFree.zero_not_mem {s : String} (h : IsNullFree s) : 0 ∉ utf8 s :=
  fun hmem => h (zero_mem_utf8_iff.mp hmem)

end Text

/-! ### Numerals have no null character -/

namespace Numeral

theorem IsCanonical.isNullFree {s : String} (h : IsCanonical s) : Text.IsNullFree s :=
  fun hmem => absurd (h.2.1 _ hmem) (by decide)

theorem isNullFree_toString (n : Int) : Text.IsNullFree (toString n) := by
  intro hmem
  rcases (isIntegerText_toString n).isDigit_or_eq_of_mem hmem with hdigit | heq
  · exact absurd hdigit (by decide)
  · exact absurd heq (by decide)

end Numeral

/-! ### The digested bytes -/

namespace ETag

open Text

/-- What follows the last mark, and what is before it, can be told apart. -/
theorem append_cons_inj {α : Type} {mark : α} {before before' after after' : List α}
    (h : mark ∉ after) (h' : mark ∉ after') :
    before ++ mark :: after = before' ++ mark :: after' ↔ before = before' ∧ after = after' := by
  -- were one of the marks earlier, the other one would stand in what follows it
  have hnil : ∀ {after after' between : List α}, mark ∉ after →
      mark :: after = between ++ mark :: after' → between = [] := by
    intro after after' between h heq
    cases between with
    | nil => rfl
    | cons a between =>
      obtain ⟨-, rfl⟩ := List.cons.inj heq
      exact absurd (List.mem_append_right _ List.mem_cons_self) h
  constructor
  · intro heq
    rcases List.append_eq_append_iff.mp heq with ⟨between, rfl, hrest⟩ | ⟨between, rfl, hrest⟩
    · obtain rfl := hnil h hrest
      exact ⟨(List.append_nil _).symm, (List.cons.inj hrest).2⟩
    · obtain rfl := hnil h' hrest
      exact ⟨List.append_nil _, (List.cons.inj hrest).2.symm⟩
  · rintro ⟨rfl, rfl⟩
    rfl

theorem bytes_eq (denom total circulating nonCirculating : String) (height : Int) :
    bytes denom total circulating nonCirculating height =
      (((utf8 denom ++ 0 :: utf8 total) ++ 0 :: utf8 circulating) ++ 0 :: utf8 nonCirculating) ++
        0 :: utf8 (toString height) := by
  simp [bytes, utf8]

variable {denom denom' total total' circulating circulating' nonCirculating nonCirculating' : String}
  {height height' : Int}

/-- **The digested bytes determine the figures**: the denomination, which may be any text, the three
amounts, which have no null character, and the height. -/
theorem bytes_eq_iff (htotal : IsNullFree total) (htotal' : IsNullFree total')
    (hcirculating : IsNullFree circulating) (hcirculating' : IsNullFree circulating')
    (hrest : IsNullFree nonCirculating) (hrest' : IsNullFree nonCirculating') :
    bytes denom total circulating nonCirculating height =
        bytes denom' total' circulating' nonCirculating' height' ↔
      denom = denom' ∧ total = total' ∧ circulating = circulating' ∧
        nonCirculating = nonCirculating' ∧ height = height' := by
  have hheight := Numeral.isNullFree_toString height
  have hheight' := Numeral.isNullFree_toString height'
  rw [bytes_eq, bytes_eq, append_cons_inj hheight.zero_not_mem hheight'.zero_not_mem,
    append_cons_inj hrest.zero_not_mem hrest'.zero_not_mem,
    append_cons_inj hcirculating.zero_not_mem hcirculating'.zero_not_mem,
    append_cons_inj htotal.zero_not_mem htotal'.zero_not_mem]
  simp only [utf8_inj, Numeral.toString_int_inj, and_assoc]

/-- The amounts have to be without the null character. -/
example : bytes "a" "b\x00c" "d" "e" 0 = bytes "a\x00b" "c" "d" "e" 0 := by
  decide +kernel

end ETag

/-! ### The tags of snapshots -/

namespace Snapshot

/-- The bytes whose digest is the tag of a snapshot. -/
def tagBytes (s : Snapshot) : List UInt8 :=
  ETag.bytes s.denom s.total s.circulating s.nonCirculating.sum s.height

theorem IsBalanced.tagBytes_eq_iff {s s' : Snapshot} (h : s.IsBalanced) (h' : s'.IsBalanced) :
    s.tagBytes = s'.tagBytes ↔
      s.denom = s'.denom ∧ s.total = s'.total ∧ s.circulating = s'.circulating ∧
        s.nonCirculating.sum = s'.nonCirculating.sum ∧ s.height = s'.height :=
  ETag.bytes_eq_iff h.total.isNullFree h'.total.isNullFree h.circulating.isNullFree
    h'.circulating.isNullFree h.sum.isNullFree h'.sum.isNullFree

/-- **The bytes of a tag determine its figures.** They do so for every denomination and every height, as
long as the amounts have no null character, and this is so in every snapshot: the tag is the digest of
its bytes, and two snapshots have the same bytes only if their denominations, amounts and heights
agree. -/
theorem bytes_eq_bytes_iff :
    (∀ denom denom' total total' circulating circulating' nonCirculating nonCirculating'
        height height',
      (∀ s ∈ [total, total', circulating, circulating', nonCirculating, nonCirculating'],
        Text.IsNullFree s) →
      (ETag.bytes denom total circulating nonCirculating height =
          ETag.bytes denom' total' circulating' nonCirculating' height' ↔
        denom = denom' ∧ total = total' ∧ circulating = circulating' ∧
          nonCirculating = nonCirculating' ∧ height = height')) ∧
    ∀ policy policyEtag denom log s policy' policyEtag' denom' log' s',
      (compute policy policyEtag denom).Run log (.ok s) →
      (compute policy' policyEtag' denom').Run log' (.ok s') →
      s.etag = Sha256.hexDigest s.tagBytes ∧
      (s.tagBytes = s'.tagBytes ↔
        s.denom = s'.denom ∧ s.total = s'.total ∧ s.circulating = s'.circulating ∧
          s.nonCirculating.sum = s'.nonCirculating.sum ∧ s.height = s'.height) := by
  constructor
  · intro denom denom' total total' circulating circulating' rest rest' height height' h
    simp only [List.forall_mem_cons] at h
    obtain ⟨htotal, htotal', hcirculating, hcirculating', hrest, hrest', -⟩ := h
    exact ETag.bytes_eq_iff htotal htotal' hcirculating hcirculating' hrest hrest'
  · intro policy policyEtag denom log s policy' policyEtag' denom' log' s' h h'
    obtain ⟨block, total, rest, f, -, hf, rfl⟩ := run_compute h
    obtain ⟨block', total', rest', f', -, hf', rfl⟩ := run_compute h'
    have hbalanced := isBalanced_of_gather hf policyEtag total
    have hbalanced' := isBalanced_of_gather hf' policyEtag' total'
    exact ⟨hbalanced.etag, hbalanced.tagBytes_eq_iff hbalanced'⟩

/-- The snapshot of another denomination of the small chain. -/
def smallOther : Snapshot :=
  ofOutcome .small none "uother" ⟨7, ⟨0, 0⟩⟩ 1000
    ((Findings.gather .small "uother" ⟨0, 0⟩).eval Source.small).outcome

/-- Two denominations of the small chain have different bytes, and so have two denominations one of which
has a null character. -/
theorem bytes_eq_bytes_iff_small :
    Snapshot.small.etag = Sha256.hexDigest Snapshot.small.tagBytes ∧
      Snapshot.small.tagBytes ≠ smallOther.tagBytes ∧
      ETag.bytes "a\x00b" "10" "7" "3" (-1) ≠ ETag.bytes "a" "10" "7" "3" (-1) := by
  obtain ⟨hfigures, hsnapshots⟩ := bytes_eq_bytes_iff
  have hother := Program.run_eval Source.small (compute .small none "uother")
  rw [eval_compute] at hother
  obtain ⟨htag, hiff⟩ := hsnapshots _ _ _ _ _ _ _ _ _ smallOther run_compute_small hother
  refine ⟨htag, fun h => ?_, fun h => ?_⟩
  · exact absurd (hiff.mp h).1 (by decide)
  · have hdenom := ((hfigures _ _ _ _ _ _ _ _ _ _ (by decide)).mp h).1
    exact absurd hdenom (by decide)

end Snapshot

end Circulation
