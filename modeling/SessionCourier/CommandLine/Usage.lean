import SessionCourier.CommandLine.Key
import SessionCourier.Text.Plain
import SessionCourier.Text.Split

set_option autoImplicit false

namespace SessionCourier.CommandLine

inductive UsageError where
  | help (page : Page)
  | nothing
  | noCommand
  | unknownCommand (word : String) (tips : List String)
  | unknownArgument (word : String) (tips : List String)
  | unneededValue (value : String) (key : Key)
  | repeated (key : Key)
  | noValue (key : Key)
  | badValue (value : String) (key : Key) (reason : String)
  deriving DecidableEq, Repr

namespace Help

def width : Nat := 100

def left (k : Key) : String := if k = .help then "-h, --help" else "    " ++ k.shown

def right (k : Key) : String :=
  match k.default? with
  | none => k.about
  | some value => k.about ++ " [default: " ++ value ++ "]"

def spaces (n : Nat) : String := String.ofList (List.replicate n ' ')

def widest (texts : List String) : Nat := (texts.map String.length).foldl max 0

def isBelow (keys : List Key) : Bool :=
  let taken := widest (keys.map Key.shown) + 8
  40 * width < 100 * taken && keys.any fun k =>
    let gap := if k.default?.isSome then 1 else 0
    width - taken < (right k).length - gap

def optionLines (keys : List Key) : List String :=
  let column := widest (keys.map left)
  keys.flatMap fun k =>
    if isBelow keys then ["  " ++ left k, spaces 10 ++ right k]
    else ["  " ++ left k ++ spaces (column - (left k).length + 2) ++ right k]

def verbLines (verbs : List Verb) : List String :=
  let column := widest (verbs.map Verb.name)
  verbs.map fun v => "  " ++ v.name ++ spaces (column - v.name.length + 2) ++ v.about

def commandSection (verbs : List Verb) : List String :=
  if verbs.isEmpty then [] else "Commands:" :: verbLines verbs ++ [""]

def optionSection (p : Page) : List String :=
  match p with
  | .of .help => ["Arguments:", "  [COMMAND]...  Print help for the subcommand(s)"]
  | _ => "Options:" :: optionLines p.keys

def lines (p : Page) : List String :=
  [p.about, "", "Usage: " ++ p.usage, ""] ++ commandSection p.verbs ++ optionSection p

end Help

namespace UsageError

/-- What is wrong, with the words as they were given; for help, the first line of the page. -/
def wording : UsageError → String
  | .help page => page.about
  | .nothing => Page.top.about
  | .noCommand => "error: '" ++ program ++ "' requires a subcommand but one was not provided"
  | .unknownCommand word _ => "error: unrecognized subcommand '" ++ word ++ "'"
  | .unknownArgument word _ => "error: unexpected argument '" ++ word ++ "' found"
  | .unneededValue value key =>
    "error: unexpected value '" ++ value ++ "' for '" ++ key.shown ++
      "' found; no more were expected"
  | .repeated key => "error: the argument '" ++ key.shown ++ "' cannot be used multiple times"
  | .noValue key => "error: a value is required for '" ++ key.shown ++ "' but none was supplied"
  | .badValue value key reason =>
    "error: invalid value '" ++ value ++ "' for '" ++ key.shown ++ "': " ++ reason

/-- What is wrong. Words may have been given that a terminal would obey, so the text is made plain. -/
def message (e : UsageError) : String := Text.plain e.wording

def headline (e : UsageError) : String := (Text.lines e.message).headD ""

def hints : UsageError → List String
  | .noCommand => ["  [subcommands: " ++ ", ".intercalate (Verb.all.map Verb.name) ++ "]"]
  | .unknownCommand _ tips | .unknownArgument _ tips => tips.map fun tip => "  tip: " ++ Text.plain tip
  | _ => []

/-- Help that was asked for is an answer and no failure. -/
def exitCode : UsageError → UInt32
  | .help _ => 0
  | _ => 2

end UsageError

end SessionCourier.CommandLine
