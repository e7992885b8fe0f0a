import Circulation.Json.Node
import Circulation.Text.Hex

/-!
# Reading JSON

The reader is a machine that takes a text one character at a time. Its state is the number of bytes
taken, the stack of containers that are open and what it is in the middle of. It therefore reads a
text in two parts as it reads the whole (`Circulation.Json.Reader.run_append`). When the text ceases
to be JSON the machine closes the open containers around a broken node and takes no notice of the
rest.

A container at the depth of the limit or deeper denotes no value. Its content must be well-formed all
the same, for a reader who passes over it.

## Main definitions

* `Circulation.Json.Reader.State` — the states of the machine.
* `Circulation.Json.Reader.step`, `Circulation.Json.Reader.run` — one character, many characters.
* `Circulation.Json.Document` — the tree of a text and the fault after it.
* `Circulation.Json.read` — the document of a text.
-/

namespace Circulation.Json

/-- The tree of a text, and the fault that other text after it is, if there is any. -/
structure Document where
  root : Node
  trailing : Option Fault

/-- The depth of nesting at which containers are too deep to be read. -/
def depthLimit : Nat := 128

namespace Reader

/-- A container that is open, with its content so far, the last part first. An object may have a key
that awaits its value. -/
inductive Frame where
  | array (start : Nat) (items : List Node)
  | object (start : Nat) (members : List Member)
  | member (start : Nat) (members : List Member) (key : Except Fault String) (keyStop : Nat)

/-- What a string literal is in the middle of. -/
inductive QuotePhase where
  | plain
  | escape
  /-- After `\u`: the bytes taken of four, and their value if they are digits so far. -/
  | hex (taken : Nat) (value : Option Nat)
  deriving DecidableEq, Repr

/-- A string literal in progress: where it started, its characters, the last first, the first half of
a surrogate pair that awaits the second, and the first fault that leaves it without a text. -/
structure Quote where
  start : Nat
  chars : List Char := []
  high : Option Nat := none
  fault : Option Fault := none
  phase : QuotePhase := .plain

/-- What a number literal is in the middle of. -/
inductive NumberPhase where
  | sign
  | zero
  | whole
  | point
  | fraction
  | exponentMark
  | exponentSign
  | exponent
  deriving DecidableEq, Repr

/-- A number literal in progress: where it started and its parts, the last digit first. -/
structure Numeral where
  start : Nat
  phase : NumberPhase
  literal : Number.Literal

/-- What the machine is in the middle of. -/
inductive Phase where
  /-- A value is due. -/
  | value
  /-- A value or the end of the array is due. -/
  | firstItem
  /-- A value is due after a comma. -/
  | nextItem
  /-- A key or the end of the object is due. -/
  | firstKey
  /-- A key is due after a comma. -/
  | nextKey
  /-- A colon is due after a key. -/
  | colon (key : Except Fault String)
  /-- A comma or the end of the array is due. -/
  | afterItem
  /-- A comma or the end of the object is due. -/
  | afterMember
  | word (start : Nat) (rest : List Char) (node : Span → Node)
  | number (numeral : Numeral)
  | string (quote : Quote)
  | key (quote : Quote)
  /-- The value of the text is complete. -/
  | done (root : Node)
  /-- The text has ceased to be JSON. -/
  | stopped (document : Document)

/-- The state of the machine: bytes taken, open containers, the innermost first, and phase. -/
structure State where
  limit : Nat
  offset : Nat := 0
  stack : List Frame := []
  phase : Phase := .value

/-- The blanks of JSON. -/
def isBlank (c : Char) : Bool :=
  c == ' ' || c == '\n' || c == '\t' || c == '\r'

/-- The node of a container at a depth, from the node that it would be at a smaller depth. -/
def guardDepth (limit depth start : Nat) (node : Node) : Node :=
  if depth < limit then node
  else
    let fault : Fault := ⟨.tooDeep, start + 1⟩
    match node.passFault? with
    | some passed => .broken start fault passed
    | none => .unreadable start fault

/-- The tree of a text that ends in a broken node inside the open containers. -/
def close (limit : Nat) (node : Node) : List Frame → Node
  | [] => node
  | .array start items :: rest =>
    close limit
      (guardDepth limit (rest.length + 1) start (.array ⟨start, start⟩ (node :: items).reverse)) rest
  | .object start members :: rest =>
    close limit
      (guardDepth limit (rest.length + 1) start (.object ⟨start, start⟩ members.reverse)) rest
  | .member start members key keyStop :: rest =>
    close limit
      (guardDepth limit (rest.length + 1) start
        (.object ⟨start, start⟩ (.mk key keyStop node :: members).reverse)) rest

/-- The document of a text that ceases to be JSON at a broken node in place of a value or an item. -/
def stop (s : State) (start : Nat) (read passed : Fault) : Document :=
  ⟨close s.limit (.broken start read passed) s.stack, none⟩

/-- The document of a text that ceases to be JSON where a key, or the end of the object, is due. -/
def stopAtKey (s : State) (start : Nat) (read passed : Fault) : Document :=
  match s.stack with
  | .object objectStart members :: rest =>
    ⟨close s.limit (.broken start read passed) (.member objectStart members (.error read) start :: rest),
      none⟩
  | stack => ⟨close s.limit (.broken start read passed) stack, none⟩

/-- The state after a complete value. -/
def complete (s : State) (node : Node) : State :=
  match s.stack with
  | [] => { s with phase := .done node }
  | .array start items :: rest =>
    { s with stack := .array start (node :: items) :: rest, phase := .afterItem }
  | .member start members key keyStop :: rest =>
    { s with stack := .object start (.mk key keyStop node :: members) :: rest, phase := .afterMember }
  | .object start members :: rest =>
    { s with stack := .object start members :: rest, phase := .afterMember }

/-- The state after the closing bracket of the innermost container. -/
def closeInnermost (s : State) (stop : Nat) : State :=
  match s.stack with
  | .array start items :: rest =>
    complete { s with stack := rest }
      (guardDepth s.limit (rest.length + 1) start (.array ⟨start, stop⟩ items.reverse))
  | .object start members :: rest =>
    complete { s with stack := rest }
      (guardDepth s.limit (rest.length + 1) start (.object ⟨start, stop⟩ members.reverse))
  | _ => s

/-- The node of a number literal that is complete before the given offset. -/
def numberNode (n : Numeral) (stop : Nat) : Node :=
  let l := n.literal
  let ordered : Number.Literal :=
    { l with
      whole := l.whole.reverse
      fraction := l.fraction.map List.reverse
      exponent := l.exponent.map fun (down, ds) => (down, ds.reverse) }
  match Number.ofLiteral ordered with
  | .ok value => .number ⟨n.start, stop⟩ value
  | .error unread => .unreadable n.start ⟨.numberTooLarge, stop - unread⟩

/-- A literal with one more digit of the part that it is in the middle of. -/
def Numeral.addDigit (n : Numeral) (phase : NumberPhase) (d : Char) : Numeral :=
  let l := n.literal
  { n with
    phase := phase
    literal :=
      match phase with
      | .fraction => { l with fraction := some (d :: l.fraction.getD []) }
      | .exponent => { l with exponent := l.exponent.map fun (down, ds) => (down, d :: ds) }
      | _ => { l with whole := d :: l.whole } }

/-- What a character does to a number literal: it goes on, it ended before the character, or the
character cannot stand there. -/
inductive NumberStep where
  | more (n : Numeral)
  | finished
  | invalid

/-- The step of a number literal at a character. -/
def numberStep (n : Numeral) (c : Char) : NumberStep :=
  let pointOrExponent : NumberStep :=
    if c = '.' then .more { n with phase := .point }
    else if c = 'e' ∨ c = 'E' then
      .more { n with phase := .exponentMark, literal := { n.literal with exponent := some (false, []) } }
    else .finished
  match n.phase with
  | .sign =>
    if c = '0' then .more (n.addDigit .zero c)
    else if c.isDigit then .more (n.addDigit .whole c)
    else .invalid
  | .zero => if c.isDigit then .invalid else pointOrExponent
  | .whole => if c.isDigit then .more (n.addDigit .whole c) else pointOrExponent
  | .point => if c.isDigit then .more (n.addDigit .fraction c) else .invalid
  | .fraction =>
    if c.isDigit then .more (n.addDigit .fraction c)
    else if c = '.' then .finished
    else pointOrExponent
  | .exponentMark =>
    if c = '+' ∨ c = '-' then
      .more { n with
        phase := .exponentSign, literal := { n.literal with exponent := some (c == '-', []) } }
    else if c.isDigit then .more (n.addDigit .exponent c)
    else .invalid
  | .exponentSign => if c.isDigit then .more (n.addDigit .exponent c) else .invalid
  | .exponent => if c.isDigit then .more (n.addDigit .exponent c) else .finished

/-- What a character does to a string literal: it goes on, it ends with the character, or the
character cannot stand there. -/
inductive QuoteStep where
  | more (q : Quote)
  | finished (q : Quote)
  | invalid (q : Quote) (read passed : Fault)

/-- The literal with a fault, unless it has one already. -/
def Quote.withFault (q : Quote) (cause : Cause) (offset : Nat) : Quote :=
  { q with high := none, fault := q.fault.or (some ⟨cause, offset⟩) }

/-- The literal with one more character. -/
def Quote.push (q : Quote) (c : Char) : Quote :=
  { q with chars := c :: q.chars, phase := .plain }

/-- The literal without its half of a surrogate pair, which lacks the other half at an offset. -/
def Quote.dropHigh (q : Quote) (offset : Nat) : Quote :=
  if q.high.isSome then q.withFault .endOfSurrogatePair (offset + 1) else q

/-- The character of an escape of one letter. -/
def escapedChar? : Char → Option Char
  | '"' => some '"'
  | '\\' => some '\\'
  | '/' => some '/'
  | 'b' => some '\x08'
  | 'f' => some '\x0c'
  | 'n' => some '\n'
  | 'r' => some '\r'
  | 't' => some '\t'
  | _ => none

/-- Whether a number is the first half of a surrogate pair. -/
def isHighSurrogate (n : Nat) : Bool :=
  0xD800 ≤ n && n ≤ 0xDBFF

/-- Whether a number is the second half of a surrogate pair. -/
def isLowSurrogate (n : Nat) : Bool :=
  0xDC00 ≤ n && n ≤ 0xDFFF

/-- The literal after an escape by number, which ends before the given offset. -/
def Quote.pushUnit (q : Quote) (n offset : Nat) : Quote :=
  let q := { q with phase := .plain }
  match q.high with
  | some high =>
    if isLowSurrogate n then
      { q with high := none }.push (Char.ofNat (0x10000 + (high - 0xD800) * 0x400 + (n - 0xDC00)))
    else q.withFault .loneSurrogate offset
  | none =>
    if isLowSurrogate n then q.withFault .loneSurrogate offset
    else if isHighSurrogate n then { q with high := some n }
    else q.push (Char.ofNat n)

/-- The step of a string literal at a character that stands at an offset. -/
def quoteStep (q : Quote) (offset : Nat) (c : Char) : QuoteStep :=
  match q.phase with
  | .plain =>
    if c = '\\' then .more { q with phase := .escape }
    else
      let q := q.dropHigh offset
      if c = '"' then .finished q
      else if c.toNat < 0x20 then
        .invalid q ⟨.controlCharacter, offset + 1⟩ ⟨.controlCharacter, offset⟩
      else .more (q.push c)
  | .escape =>
    if c = 'u' then .more { q with phase := .hex 0 (some 0) }
    else
      let q := q.dropHigh offset
      match escapedChar? c with
      | some d => .more (q.push d)
      | none => .invalid q ⟨.invalidEscape, offset + 1⟩ ⟨.invalidEscape, offset + 1⟩
  | .hex taken value =>
    let start := offset - taken
    let taken := taken + c.utf8Size
    let value := value.bind fun n => (Text.hexDigitValue? c).map fun d => 16 * n + d
    if taken < 4 then .more { q with phase := .hex taken value }
    else
      match value with
      | some n => .more (q.pushUnit n (start + 4))
      | none => .invalid q ⟨.invalidEscape, start + 4⟩ ⟨.invalidEscape, start + 4⟩

/-- The text of a complete string literal, or the fault that leaves it without one. -/
def Quote.text (q : Quote) : Except Fault String :=
  match q.fault with
  | some fault => .error fault
  | none => .ok (String.ofList q.chars.reverse)

/-- The node of a string literal that is complete before the given offset. -/
def stringNode (q : Quote) (stop : Nat) : Node :=
  match q.text with
  | .ok s => .string ⟨q.start, stop⟩ s
  | .error fault => .unreadable q.start fault

/-- The phase after the first character of a value, or nothing if no value starts so. Brackets are
left to `step`. -/
def startValue? (offset : Nat) (c : Char) : Option Phase :=
  if c = 'n' then some (.word offset ['u', 'l', 'l'] .null)
  else if c = 't' then some (.word offset ['r', 'u', 'e'] (.bool · true))
  else if c = 'f' then some (.word offset ['a', 'l', 's', 'e'] (.bool · false))
  else if c = '"' then some (.string { start := offset })
  else if c = '-' then some (.number ⟨offset, .sign, { negative := true }⟩)
  else if c = '0' then some (.number ⟨offset, .zero, { whole := [c] }⟩)
  else if c.isDigit then some (.number ⟨offset, .whole, { whole := [c] }⟩)
  else none

/-- The phase in which no more of the text counts. -/
def halt (s : State) (document : Document) : State :=
  { s with phase := .stopped document }

/-- The state after the first character of a value. Here and below, `s.offset` is the offset of the
character, which `step` then adds to the bytes taken. -/
def stepValue (s : State) (c : Char) : State :=
  let start := s.offset
  if c = '[' then { s with stack := .array start [] :: s.stack, phase := .firstItem }
  else if c = '\x7b' then { s with stack := .object start [] :: s.stack, phase := .firstKey }
  else
    match startValue? start c with
    | some phase => { s with phase := phase }
    | none => halt s (stop s start ⟨.expectedValue, start + 1⟩ ⟨.expectedValue, start + 1⟩)

/-- The state after a character that stands after a value or between the parts of a container. -/
def stepBetween (s : State) (c : Char) : State :=
  let start := s.offset
  let fault (cause : Cause) : Fault := ⟨cause, start + 1⟩
  if isBlank c then s
  else
    match s.phase with
    | .value => stepValue s c
    | .firstItem => if c = ']' then closeInnermost s (start + 1) else stepValue s c
    | .nextItem =>
      if c = ']' then halt s (stop s start (fault .trailingComma) (fault .expectedValue))
      else stepValue s c
    | .firstKey =>
      if c = '"' then { s with phase := .key { start := start } }
      else if c = '\x7d' then closeInnermost s (start + 1)
      else halt s (stopAtKey s start (fault .keyNotString) (fault .keyNotString))
    | .nextKey =>
      if c = '"' then { s with phase := .key { start := start } }
      else if c = '\x7d' then
        halt s (stopAtKey s start (fault .trailingComma) (fault .keyNotString))
      else halt s (stopAtKey s start (fault .keyNotString) (fault .keyNotString))
    | .colon key =>
      match s.stack with
      | .object objectStart members :: rest =>
        let s := { s with stack := .member objectStart members key start :: rest }
        if c = ':' then { s with phase := .value }
        else halt s (stop s start (fault .expectedColon) (fault .expectedColon))
      | _ => s
    | .afterItem =>
      if c = ',' then { s with phase := .nextItem }
      else if c = ']' then closeInnermost s (start + 1)
      else halt s (stop s start (fault .expectedCommaInList) (fault .expectedCommaInList))
    | .afterMember =>
      if c = ',' then { s with phase := .nextKey }
      else if c = '\x7d' then closeInnermost s (start + 1)
      else halt s (stopAtKey s start (fault .expectedCommaInObject) (fault .expectedCommaInObject))
    | .done root => halt s ⟨root, some (fault .trailingText)⟩
    | _ => s

/-- The state after a character, but for the offset. -/
def stepPhase (s : State) (c : Char) : State :=
  let start := s.offset
  match s.phase with
  | .word first rest node =>
    match rest with
    | d :: rest =>
      if c = d then
        if rest = [] then complete s (node ⟨first, start + 1⟩)
        else { s with phase := .word first rest node }
      else halt s (stop s first ⟨.expectedWord, start + 1⟩ ⟨.expectedWord, start + 1⟩)
    | [] => s
  | .number n =>
    match numberStep n c with
    | .more n => { s with phase := .number n }
    | .finished => stepBetween (complete s (numberNode n start)) c
    | .invalid => halt s (stop s n.start ⟨.invalidNumber, start + 1⟩ ⟨.invalidNumber, start + 1⟩)
  | .string q =>
    match quoteStep q start c with
    | .more q => { s with phase := .string q }
    | .finished q => complete s (stringNode q (start + 1))
    | .invalid q read passed => halt s (stop s q.start (q.fault.getD read) passed)
  | .key q =>
    match quoteStep q start c with
    | .more q => { s with phase := .key q }
    | .finished q => { s with phase := .colon q.text }
    | .invalid q read passed => halt s (stopAtKey s q.start (q.fault.getD read) passed)
  | .stopped _ => s
  | _ => stepBetween s c

/-- The state after one more character. -/
def step (s : State) (c : Char) : State :=
  let next := stepPhase s c
  { next with offset := s.offset + c.utf8Size }

/-- The state after more characters. -/
def run (s : State) (cs : List Char) : State :=
  cs.foldl step s

/-- A text may be taken in parts. -/
theorem run_append (s : State) (cs ds : List Char) : run s (cs ++ ds) = run (run s cs) ds :=
  List.foldl_append

/-- The document of a text that ends in a state. -/
def finish (s : State) : Document :=
  let stopHere (start : Nat) (read passed : Cause) : Document :=
    stop s start ⟨read, s.offset⟩ ⟨passed, s.offset⟩
  let stopAtKeyHere (read passed : Cause) : Document :=
    stopAtKey s s.offset ⟨read, s.offset⟩ ⟨passed, s.offset⟩
  match s.phase with
  | .value | .nextItem => stopHere s.offset .endInValue .endInValue
  | .firstItem | .afterItem => stopHere s.offset .endInList .endInList
  | .firstKey | .afterMember => stopAtKeyHere .endInObject .endInObject
  | .nextKey => stopAtKeyHere .endInValue .endInObject
  | .colon key =>
    match s.stack with
    | .object start members :: rest =>
      stop { s with stack := .member start members key s.offset :: rest } s.offset
        ⟨.endInObject, s.offset⟩ ⟨.endInObject, s.offset⟩
    | _ => stopHere s.offset .endInObject .endInObject
  | .word start _ _ => stopHere start .endInValue .endInValue
  | .number n =>
    match n.phase with
    | .sign | .point | .exponentMark | .exponentSign =>
      stopHere n.start .endInValue .invalidNumber
    | _ =>
      let s := complete s (numberNode n s.offset)
      match s.phase with
      | .done root => ⟨root, none⟩
      | .afterMember => stopAtKey s s.offset ⟨.endInObject, s.offset⟩ ⟨.endInObject, s.offset⟩
      | _ => stop s s.offset ⟨.endInList, s.offset⟩ ⟨.endInList, s.offset⟩
  | .string q =>
    stop s q.start (q.fault.getD ⟨.endInString, s.offset⟩) ⟨.endInString, s.offset⟩
  | .key q =>
    stopAtKey s q.start (q.fault.getD ⟨.endInString, s.offset⟩) ⟨.endInString, s.offset⟩
  | .done root => ⟨root, none⟩
  | .stopped document => document

end Reader

/-- The document of a text, where containers at depth `limit` are too deep to be read. -/
def readWithin (limit : Nat) (s : String) : Document :=
  Reader.finish (Reader.run { limit := limit } s.toList)

/-- The document of a text. -/
def read (s : String) : Document :=
  readWithin depthLimit s

end Circulation.Json
