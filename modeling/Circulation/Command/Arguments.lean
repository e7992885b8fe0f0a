import Circulation.Numeral

/-!
# The arguments of the command line

A command line names one command. Options that concern the chain stand before or after the name,
options of the command itself after it. At each of the two places an option is given at most once,
and the place after the name wins. An option that concerns the chain has a variable of the
environment, which counts where the option is not given, and a default.

## Main definitions

* `Circulation.Command.Setting` — the options.
* `Circulation.Command.UsageError`, `Circulation.Command.Halt` — why a command line names nothing to do.
* `Circulation.Command.Action`, `Circulation.Command.Arguments` — what a command line asks for.
* `Circulation.Command.Arguments.parse` — the arguments of a command line.
-/

namespace Circulation.Command

/-- The options. -/
inductive Setting where
  | lcd
  | policy
  | denom
  | ttlSecs
  | timeoutSecs
  | pretty
  | iterations
  | help
  deriving DecidableEq, Repr

namespace Setting

/-- The name of an option, without the hyphens before it. -/
def name : Setting → String
  | .lcd => "lcd"
  | .policy => "policy"
  | .denom => "denom"
  | .ttlSecs => "ttl-secs"
  | .timeoutSecs => "timeout-secs"
  | .pretty => "pretty"
  | .iterations => "iterations"
  | .help => "help"

/-- What stands for the value of an option, if the option has a value. -/
def placeholder? : Setting → Option String
  | .lcd => some "LCD"
  | .policy => some "POLICY"
  | .denom => some "DENOM"
  | .ttlSecs => some "TTL_SECS"
  | .timeoutSecs => some "TIMEOUT_SECS"
  | .iterations => some "ITERATIONS"
  | .pretty | .help => none

/-- The variable of the environment that stands for an option. -/
def environmentName? : Setting → Option String
  | .lcd => some "SUPPLY_LCD_URL"
  | .policy => some "SUPPLY_POLICY_PATH"
  | .denom => some "SUPPLY_DENOM"
  | .ttlSecs => some "SUPPLY_TTL_SECS"
  | .timeoutSecs => some "SUPPLY_HTTP_TIMEOUT_SECS"
  | .pretty | .iterations | .help => none

/-- The options that concern the chain. -/
def ofChain : List Setting :=
  [.lcd, .policy, .denom, .ttlSecs, .timeoutSecs]

/-- The written form of an option in a report. -/
def text (o : Setting) : String :=
  match o.placeholder? with
  | some p => "--" ++ o.name ++ " <" ++ p ++ ">"
  | none => "--" ++ o.name

end Setting

/-- What is wrong with a command line. -/
inductive UsageError where
  | unexpected (argument : String)
  | noValue (o : Setting)
  | needlessValue (o : Setting) (value : String)
  | repeated (o : Setting)
  | badValue (o : Setting) (value why : String)
  | unknownCommand (name : String)
  | noCommand
  deriving DecidableEq, Repr

/-- The text that reports what is wrong with a command line. -/
def UsageError.message : UsageError → String
  | .unexpected argument => "unexpected argument '" ++ argument ++ "' found"
  | .noValue o => "a value is required for '" ++ o.text ++ "' but none was supplied"
  | .needlessValue o value =>
    "unexpected value '" ++ value ++ "' for '" ++ o.text ++ "' found; no more were expected"
  | .repeated o => "the argument '" ++ o.text ++ "' cannot be used multiple times"
  | .badValue o value why => "invalid value '" ++ value ++ "' for '" ++ o.text ++ "': " ++ why
  | .unknownCommand name => "unrecognized subcommand '" ++ name ++ "'"
  | .noCommand => "'supply-snapshot' requires a subcommand but one was not provided"

/-- Why a command line names nothing to do. -/
inductive Halt where
  /-- It asks for help. -/
  | help
  | misuse (why : UsageError)
  deriving DecidableEq, Repr

/-! ### Values -/

/-- Why a text is not a number of an unsigned 64-bit word. -/
inductive CountError where
  | empty
  | digit
  | tooLarge
  deriving DecidableEq, Repr

/-- The text that reports why a text is not a number. -/
def CountError.message : CountError → String
  | .empty => "cannot parse integer from empty string"
  | .digit => "invalid digit found in string"
  | .tooLarge => "number too large to fit in target type"

/-- The number of an unsigned 64-bit word that a text denotes, which may have a plus sign. -/
def count (s : String) : Except CountError Nat :=
  let digits :=
    match s.toList with
    | '+' :: ds => ds
    | ds => ds
  if s = "" then .error .empty
  else
    match Numeral.natural? digits with
    | some n => if n < 18446744073709551616 then .ok n else .error .tooLarge
    | none => .error .digit

/-- Whether an option may have a value: a number where a number is meant, and a path that is not
empty. -/
def checkValue (o : Setting) (value : String) : Except UsageError Unit :=
  match o with
  | .ttlSecs | .timeoutSecs | .iterations =>
    match count value with
    | .ok _ => .ok ()
    | .error why => .error (.badValue o value why.message)
  | .policy => if value = "" then .error (.noValue o) else .ok ()
  | _ => .ok ()

/-- Options with their values. An option without a value has the empty text. -/
abbrev Given := List (Setting × String)

namespace Given

/-- The value that is given for an option. -/
def value? (g : Given) (o : Setting) : Option String :=
  g.lookup o

/-- One more option. -/
def put (o : Setting) (value : String) (g : Given) : Except UsageError Given := do
  if (g.value? o).isSome then throw (.repeated o)
  checkValue o value
  return g ++ [(o, value)]

end Given

/-! ### Arguments -/

/-- The kinds of arguments. -/
inductive Token where
  /-- Two hyphens: what follows is no option. -/
  | escape
  /-- An option by its name, perhaps with a value after an equals sign. -/
  | long (name : String) (value : Option String)
  /-- An option of one letter, or several of them. -/
  | short (letters : List Char)
  | word (text : String)
  deriving DecidableEq, Repr

/-- The kind of an argument. -/
def Token.ofArgument (argument : String) : Token :=
  match argument.toList with
  | ['-', '-'] => .escape
  | '-' :: '-' :: cs =>
    let name := String.ofList (cs.takeWhile (· != '='))
    match cs.dropWhile (· != '=') with
    | _ :: value => .long name (some (String.ofList value))
    | [] => .long name none
  | '-' :: c :: cs => .short (c :: cs)
  | _ => .word argument

/-- What one place of the command line holds: options, and the command with what follows it. -/
structure Part where
  given : Given
  command : Option (String × List String)

/-- Reads options up to the name of a command or to the end. `pending` is the option that the first
argument is the value of. -/
def Part.parse (allowed : List Setting) (commands : List String) (pending : Option Setting)
    (given : Given) : List String → Except Halt Part
  | [] =>
    match pending with
    | some o => .error (.misuse (.noValue o))
    | none => .ok ⟨given, none⟩
  | argument :: rest =>
    match pending, Token.ofArgument argument with
    | some o, .word value =>
      match given.put o value with
      | .ok given => Part.parse allowed commands none given rest
      | .error why => .error (.misuse why)
    | some o, _ => .error (.misuse (.noValue o))
    | none, .word name =>
      if name ∈ commands then .ok ⟨given, some (name, rest)⟩
      else if commands = [] then .error (.misuse (.unexpected name))
      else .error (.misuse (.unknownCommand name))
    | none, .escape =>
      match rest with
      | [] => .ok ⟨given, none⟩
      | extra :: _ => .error (.misuse (.unexpected extra))
    | none, .short letters =>
      if letters.head? = some 'h' then .error .help else .error (.misuse (.unexpected argument))
    | none, .long name value =>
      match allowed.find? (·.name == name), value with
      | none, _ => .error (.misuse (.unexpected ("--" ++ name)))
      | some .help, none => .error .help
      | some o, none =>
        if o.placeholder?.isSome then Part.parse allowed commands (some o) given rest
        else
          match given.put o "" with
          | .ok given => Part.parse allowed commands none given rest
          | .error why => .error (.misuse why)
      | some o, some value =>
        if o.placeholder?.isSome then
          match given.put o value with
          | .ok given => Part.parse allowed commands none given rest
          | .error why => .error (.misuse why)
        else .error (.misuse (.needlessValue o value))

/-! ### Commands -/

/-- What is to be done. -/
inductive Action where
  /-- Compute one snapshot and print it. -/
  | snapshot (pretty : Bool)
  /-- Refresh once per period and report each change, for as many polls as are asked for. -/
  | watch (iterations : Option Nat)
  /-- Validate the policy and print its fingerprint. -/
  | checkPolicy
  deriving DecidableEq, Repr

/-- What a command line asks for. -/
structure Arguments where
  lcdUrl : String
  policyPath : String
  denom : String
  ttlSeconds : Nat
  timeoutSeconds : Nat
  action : Action
  deriving DecidableEq, Repr

/-- The names of the commands, with the options of each. -/
def commands : List (String × List Setting) :=
  [("snapshot", [.pretty]), ("watch", [.iterations]), ("check-policy", [])]

/-- The values that the environment gives to options for the chain. An option that is given at both
places of the command line is not looked up. -/
def Given.ofEnvironment (environment : String → Option String) (outer inner : Given) :
    Except UsageError Given :=
  Setting.ofChain.foldlM (fun given o =>
    if (outer.value? o).isSome && (inner.value? o).isSome then .ok given
    else
      match o.environmentName?.bind environment with
      | some value => given.put o value
      | none => .ok given) []

/-- The action of a command, given the options after its name. -/
def Action.ofName (name : String) (inner : Given) : Action :=
  if name = "snapshot" then .snapshot (inner.value? .pretty).isSome
  else if name = "watch" then
    .watch ((inner.value? .iterations).bind fun value => (count value).toOption)
  else .checkPolicy

/-- The arguments of a command line in an environment. -/
def Arguments.parse (environment : String → Option String) (arguments : List String) :
    Except Halt Arguments := do
  let outer ← Part.parse (.help :: Setting.ofChain) ("help" :: commands.map (·.1)) none []
    arguments
  match outer.command with
  | none => throw (.misuse .noCommand)
  | some ("help", rest) =>
    match rest.head? with
    | some name =>
      if name ∈ "help" :: commands.map (·.1) then throw .help
      else throw (.misuse (.unknownCommand name))
    | none => throw .help
  | some (name, rest) =>
    let own := (commands.lookup name).getD []
    let inner ← Part.parse (.help :: Setting.ofChain ++ own) [] none [] rest
    let inherited ←
      (Given.ofEnvironment environment outer.given inner.given).mapError Halt.misuse
    let given := inner.given ++ outer.given ++ inherited
    let number (o : Setting) (default : Nat) : Nat :=
      ((given.value? o).bind fun value => (count value).toOption).getD default
    return {
      lcdUrl := (given.value? .lcd).getD "http://localhost:1317"
      policyPath := (given.value? .policy).getD "policy.json"
      denom := (given.value? .denom).getD "ulume"
      ttlSeconds := number .ttlSecs 60
      timeoutSeconds := number .timeoutSecs 5
      action := Action.ofName name inner.given }

end Circulation.Command
