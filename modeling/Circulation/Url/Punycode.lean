/-!
# Punycode

Labels of host names outside ASCII are written in ASCII: the ASCII characters of the label, and after
a hyphen the other characters in the order of their code points, each as the number of states that a
counter of insertions passes before it. The numbers have digits of base 36 whose weights adapt to the
numbers before.

## Main definitions

* `Circulation.Punycode.encode` — the ASCII form of a label.
-/

namespace Circulation.Punycode

/-- The digit of a value below 36: letters first, then decimal digits. -/
def digit (n : Nat) : Char :=
  if n < 26 then Char.ofNat (0x61 + n) else Char.ofNat (0x30 + n - 26)

/-- The number of steps by which a value has to be divided by 35 to fall to 455, and what remains. -/
def shrink (delta steps : Nat) : Nat × Nat :=
  if 455 < delta then shrink (delta / 35) (steps + 1) else (delta, steps)
termination_by delta

/-- The bias after a number, given how many characters are written. -/
def adapt (delta count : Nat) (first : Bool) : Nat :=
  let delta := if first then delta / 700 else delta / 2
  let (delta, steps) := shrink (delta + delta / count) 0
  36 * steps + 36 * delta / (delta + 38)

/-- The weight limit of the digit at a position, which counts in steps of 36. -/
def threshold (position bias : Nat) : Nat :=
  max 1 (min 26 (position - bias))

/-- The digits of a number, the first at the given position. There are at most `fuel` more than one. -/
def digits (bias position n : Nat) : Nat → List Char
  | 0 => [digit (n % 36)]
  | fuel + 1 =>
    let t := threshold position bias
    if n < t then [digit n]
    else
      digit (t + (n - t) % (36 - t)) :: digits bias (position + 36) ((n - t) / (36 - t)) fuel

/-- The state of the encoder: the digits written, the counter, the bias and the number of characters
written. -/
structure Progress where
  written : List Char
  delta : Nat
  bias : Nat
  count : Nat

/-- The state after the encoder has passed a character of the label while it inserts `m`. -/
def pass (basic m : Nat) (p : Progress) (c : Char) : Progress :=
  if c.toNat < m then { p with delta := p.delta + 1 }
  else if c.toNat = m then
    { written := p.written ++ digits p.bias 36 p.delta 64
      delta := 0
      bias := adapt p.delta (p.count + 1) (p.count == basic)
      count := p.count + 1 }
  else p

/-- The state after all characters of the code points `ms`, which increase, from the code point `n`. -/
def insertAll (label : List Char) (basic : Nat) : List Nat → Nat → Progress → Progress
  | [], _, p => p
  | m :: ms, n, p =>
    let p := { p with delta := p.delta + (m - n) * (p.count + 1) }
    let p := label.foldl (pass basic m) p
    insertAll label basic ms (m + 1) { p with delta := p.delta + 1 }

/-- The ASCII form of a label. -/
def encode (label : List Char) : List Char :=
  let ascii := label.filter fun c => c.toNat < 0x80
  let others := ((label.map Char.toNat).filter fun n => 0x80 ≤ n).mergeSort.eraseDups
  let start := if ascii = [] then [] else ascii ++ ['-']
  (insertAll label ascii.length others 0x80 ⟨start, 0, 72, ascii.length⟩).written

end Circulation.Punycode
