import LineCalc.Text.DecimalDigit
import LineCalc.Text.Quoted

/-!
The arguments of the command line. Each is first classified on its own (`Options.classify`), then
they take effect in order (`Options.interpret`): the first name is the source, a request for help
or the version ends it at once, and what is left over is complained about at the end. A value that
is joined to a switch of one letter is read as argument parsers did before their releases 3.11.9
and 3.12.3: `-q=v` is `-q -v`, and `-hx` and `-qx` are refused at once. Those releases refuse
`-q=v`, show the help for `-hx` and leave `-x` over from `-qx`.
-/
namespace LineCalc.Options

inductive Switch
  | help
  | quiet
  | verbose
  | languageHelp
  | version
  deriving DecidableEq

def spellings : List (Text × Switch) :=
  [("-h".toList, .help), ("--help".toList, .help), ("-q".toList, .quiet), ("--quiet".toList, .quiet),
    ("-v".toList, .verbose), ("--verbose".toList, .verbose), ("--help-language".toList, .languageHelp),
    ("--version".toList, .version)]

def ofSpelling? (spelling : Text) : Option Switch := spellings.lookup spelling

/-- All spellings of a switch, as messages show them. -/
def Switch.shown (switch : Switch) : Text :=
  Text.joined ['/'] ((spellings.filter fun (_, other) => other = switch).map Prod.fst)

/-- Why arguments are refused. -/
inductive Misuse
  | ambiguous (argument : Text) (candidates : List Text)
  | needlessValue (switch : Switch) (value : Text)
  | unrecognized (arguments : List Text)
  deriving DecidableEq

def Misuse.message : Misuse → Text
  | ambiguous argument candidates =>
    "ambiguous option: ".toList ++ argument ++ " could match ".toList ++ Text.joined ", ".toList candidates
  | needlessValue switch value =>
    "argument ".toList ++ switch.shown ++ ": ignored explicit argument ".toList ++ Text.quoted value
  | unrecognized arguments => "unrecognized arguments: ".toList ++ Text.joined [' '] arguments

/-- A switch with the value that is joined to it. -/
structure Recognised where
  spelling : Text
  switch : Switch
  value : Option Text
  deriving DecidableEq

inductive Item
  | name (argument : Text)
  | mark
  | switch (recognised : Recognised)
  | unknown (argument : Text)
  deriving DecidableEq

def splitEquals : Text → Option (Text × Text)
  | [] => none
  | c :: rest => if c = '=' then some ([], rest) else (splitEquals rest).map fun (left, right) => (c :: left, right)

/-- The long switches that an argument may be short for. -/
def longCandidates (argument : Text) : List Recognised :=
  let (start, value) := match splitEquals argument with
    | some (left, right) => (left, some right)
    | none => (argument, none)
  spellings.filterMap fun (spelling, switch) =>
    if start.isPrefixOf spelling then some ⟨spelling, switch, value⟩ else none

/-- The switches that an argument with one dash may begin with or be short for. -/
def shortCandidates (argument : Text) : List Recognised :=
  spellings.filterMap fun (spelling, switch) =>
    if spelling = argument.take 2 then some ⟨spelling, switch, some (argument.drop 2)⟩
    else if argument.isPrefixOf spelling then some ⟨spelling, switch, none⟩
    else none

def candidates (argument : Text) : List Recognised :=
  if ['-', '-'].isPrefixOf argument then longCandidates argument else shortCandidates argument

/-- A text without a line feed at its end. -/
def dropLineFeed (text : Text) : Text := if text.getLast? = some '\n' then text.dropLast else text

/-- A negative number, with or without a fraction, is no switch. -/
def isNegativeNumber : Text → Bool
  | '-' :: rest =>
    let digits := dropLineFeed rest
    match digits.dropWhile Text.isDecimalDigit with
    | [] => !digits.isEmpty
    | '.' :: fraction => !fraction.isEmpty && fraction.all Text.isDecimalDigit
    | _ => false
  | _ => false

/-- A switch that is written in full, alone or with a value behind an equals sign. -/
def inFull? (argument : Text) : Option Recognised :=
  match ofSpelling? argument with
  | some switch => some ⟨argument, switch, none⟩
  | none => do
    let (spelling, value) ← splitEquals argument
    let switch ← ofSpelling? spelling
    return ⟨spelling, switch, some value⟩

def classifyDashed (argument : Text) : Except Misuse Item :=
  match inFull? argument, candidates argument with
  | some recognised, _ => .ok (.switch recognised)
  | none, [recognised] => .ok (.switch recognised)
  | none, [] =>
    if isNegativeNumber argument || argument.contains ' ' then .ok (.name argument) else .ok (.unknown argument)
  | none, several => .error (.ambiguous argument (several.map Recognised.spelling))

/-- A dash alone is a name. -/
def classifyOne (argument : Text) : Except Misuse Item :=
  if argument.head? = some '-' && argument ≠ ['-'] then classifyDashed argument else .ok (.name argument)

/-- Behind a pair of dashes all arguments are names. -/
def classify : List Text → Except Misuse (List Item)
  | [] => .ok []
  | argument :: rest =>
    if argument = ['-', '-'] then .ok (.mark :: rest.map .name)
    else do
      let item ← classifyOne argument
      let items ← classify rest
      return item :: items

/-- The switches of one argument. A value that is no further letter is refused. -/
def unbundle (spelling : Text) (switch : Switch) : Option Text → Except Misuse (List Switch)
  | none => .ok [switch]
  | some [] => .error (.needlessValue switch [])
  | some (c :: rest) =>
    if ['-', '-'].isPrefixOf spelling then .error (.needlessValue switch (c :: rest))
    else match ofSpelling? ['-', c] with
      | none => .error (.needlessValue switch (c :: rest))
      | some next =>
        if rest.isEmpty then .ok [switch, next]
        else (unbundle ['-', c] next (some rest)).map (switch :: ·)

structure Settings where
  source : Text
  quiet : Bool
  verbose : Bool
  languageHelp : Bool
  deriving DecidableEq

inductive Request
  | run (settings : Settings)
  | help
  | version
  | misuse (misuse : Misuse)
  deriving DecidableEq

/-- The switches, the source if there is one, what is left over, and whether the last argument was
    the source. -/
structure Progress where
  quiet : Bool
  verbose : Bool
  languageHelp : Bool
  source : Option Text
  leftOver : List Text
  atSource : Bool

def Progress.start : Progress := ⟨false, false, false, none, [], false⟩

/-- Turns switches on, up to one that asks for an answer at once. -/
def Progress.turnOn (progress : Progress) : List Switch → Except Request Progress
  | [] => .ok progress
  | .help :: _ => .error .help
  | .version :: _ => .error .version
  | .quiet :: rest => turnOn { progress with quiet := true } rest
  | .verbose :: rest => turnOn { progress with verbose := true } rest
  | .languageHelp :: rest => turnOn { progress with languageHelp := true } rest

def Progress.leave (progress : Progress) (argument : Text) : Progress :=
  { progress with leftOver := progress.leftOver ++ [argument], atSource := false }

/-- The mark of names is passed over where the source may stand and right behind it, and left over
    elsewhere. -/
def Progress.take (progress : Progress) : Item → Except Request Progress
  | .name argument =>
    match progress.source with
    | none => .ok { progress with source := some argument, atSource := true }
    | some _ => .ok (progress.leave argument)
  | .mark =>
    if progress.source.isNone || progress.atSource then .ok { progress with atSource := false }
    else .ok (progress.leave ['-', '-'])
  | .unknown argument => .ok (progress.leave argument)
  | .switch recognised =>
    match unbundle recognised.spelling recognised.switch recognised.value with
    | .error misuse => .error (.misuse misuse)
    | .ok switches => { progress with atSource := false }.turnOn switches

def Progress.takeAll (progress : Progress) : List Item → Except Request Progress
  | [] => .ok progress
  | item :: rest =>
    match progress.take item with
    | .error request => .error request
    | .ok after => takeAll after rest

/-- Without a source, standard input is read. -/
def Progress.finish (progress : Progress) : Request :=
  if progress.leftOver.isEmpty then
    .run ⟨progress.source.getD ['-'], progress.quiet, progress.verbose, progress.languageHelp⟩
  else .misuse (.unrecognized progress.leftOver)

def interpret (arguments : List Text) : Request :=
  match classify arguments with
  | .error misuse => .misuse misuse
  | .ok items =>
    match Progress.start.takeAll items with
    | .error request => request
    | .ok progress => progress.finish

end LineCalc.Options
