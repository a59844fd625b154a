import CrossChain.Decimal.Numeral

/-!
# The options of a deployment

The command line is a list of arguments: chains by name, two switches, and an amount.  Options may
be shortened to any beginning that no other option has, and their value may follow an equals sign.
All chains stand next to each other.  After `--` everything is a name.
-/

namespace CrossChain

namespace Deploy

/-- What a deployment is to do. -/
structure Options where
  chains : List Text
  fresh : Bool := false
  publish : Bool := false
  fund : Text := []
  deriving DecidableEq, Repr

/-- How a command line is understood. -/
inductive Reading
  | run (options : Options)
  | help
  | misuse
  deriving DecidableEq, Repr

/-! ### Arguments by themselves -/

/-- The options there are. -/
inductive Switch
  | help
  | fresh
  | publish
  | fund
  deriving DecidableEq, Repr

/-- The name of an option. -/
def Switch.name : Switch → Text
  | help => "--help"
  | fresh => "--fresh"
  | publish => "--publish"
  | fund => "--fund"

/-- What an argument is by itself. -/
inductive Token
  | word (s : Text)
  | rest
  | option (switch : Switch) (value : Option Text)
  | unknown
  | faulty
  deriving DecidableEq, Repr

/-- Whether an argument reads as a negative number, with a line feed after it at most. -/
def isNegativeNumber (s : Text) : Bool :=
  match s with
  | 45 :: body =>
    let body := if body.getLast? == some 10 then body.dropLast else body
    let isDigit (c : CodePoint) : Bool := (CodePoint.digitValue? c).isSome
    let fraction := body.dropWhile isDigit
    match fraction with
    | [] => !body.isEmpty
    | 46 :: digits => !digits.isEmpty && digits.all isDigit
    | _ => false
  | _ => false

/-- An argument that starts with two dashes. -/
def longToken (s : Text) : Token :=
  let (name, value) := Text.cutAt 61 s
  let value := if s.contains 61 then some value else none
  match [Switch.help, .fresh, .publish, .fund].find? fun o => o.name == name with
  | some o => .option o value
  | none =>
    match [Switch.help, .fresh, .publish, .fund].filter fun o => name.isPrefixOf o.name with
    | [o] => .option o value
    | [] => if s.contains 32 then .word s else .unknown
    | _ => .faulty

/-- What follows `-h` in an argument, if it is a value and not the same letter again.  An equals
sign in front of it may be left out. -/
def helpValue? (tail : Text) : Option Text :=
  match tail with
  | [] => none
  | c :: rest =>
    let value := if c = 61 then rest else tail
    if !value.isEmpty && value.all (· == 104) then none else some value

/-- An argument that starts with one dash: `-h` with what follows it, a negative number, or a word
with a space. -/
def shortToken (s : Text) : Token :=
  match s with
  | 45 :: 104 :: tail => .option .help (helpValue? tail)
  | s => if isNegativeNumber s || s.contains 32 then .word s else .unknown

/-- What an argument is by itself. -/
def tokenOf (s : Text) : Token :=
  match s with
  | [45, 45] => .rest
  | 45 :: 45 :: _ => longToken s
  | 45 :: _ :: _ => shortToken s
  | s => .word s

/-- What the arguments are; all after the first `--` are words. -/
def tokens : List Text → List Token
  | [] => []
  | s :: more =>
    match tokenOf s with
    | .rest => .rest :: more.map .word
    | token => token :: tokens more

/-! ### Arguments together -/

/-- Where a command line stands with its chains. -/
inductive Stage
  | before
  | within
  | after
  deriving DecidableEq, Repr

/-- The stage after an option. -/
def Stage.afterOption : Stage → Stage
  | before => before
  | _ => after

/-- Reads the tokens that are left.  `good` says that nothing was found so far that the end of the
command line will refuse; a missing or a superfluous value is refused at once, and a call for help
is heard at once.  Two dashes after an equals sign are no amount. -/
def readTokens : List Token → Stage → Bool → Options → Reading
  | [], _, good, o => if good && !o.chains.isEmpty then .run o else .misuse
  | .word s :: more, .before, good, o => readTokens more .within good { o with chains := [s] }
  | .word s :: more, .within, good, o =>
    readTokens more .within good { o with chains := o.chains ++ [s] }
  | .word _ :: more, .after, _, o => readTokens more .after false o
  | .rest :: more, .after, _, o => readTokens more .after false o
  | .rest :: more, stage, good, o => readTokens more stage good o
  | .unknown :: more, stage, _, o => readTokens more stage.afterOption false o
  | .faulty :: _, _, _, _ => .misuse
  | .option .fund (some s) :: more, stage, good, o =>
    readTokens more stage.afterOption good { o with fund := if s = text "--" then [] else s }
  | .option .fund none :: .word s :: more, stage, good, o =>
    readTokens more stage.afterOption good { o with fund := s }
  | .option .fund none :: _, _, _, _ => .misuse
  | .option _ (some _) :: _, _, _, _ => .misuse
  | .option .help none :: _, _, _, _ => .help
  | .option .fresh none :: more, stage, good, o =>
    readTokens more stage.afterOption good { o with fresh := true }
  | .option .publish none :: more, stage, good, o =>
    readTokens more stage.afterOption good { o with publish := true }

/-- Reads a command line.  A shortened option that could be several is refused before all else. -/
def read (arguments : List Text) : Reading :=
  let ts := tokens arguments
  if ts.contains .faulty then .misuse else readTokens ts .before true { chains := [] }

end Deploy

end CrossChain
