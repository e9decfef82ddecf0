import IndentMarkup.Markup.Options

/-!
# Command line arguments

Options may stand anywhere behind the subcommand that knows them. Short options may be
run together, and an option that takes a value takes it from the same argument or from
the next. Reading goes from left to right and stops at the first fault or at a request
for help or the version.
-/

namespace IndentMarkup.CommandLine

inductive Request where
  | build (path : Text) (out : Option Text) (options : RenderOptions)
  | check (path : Text)
  | tokens (path : Text)
  deriving DecidableEq, Repr

inductive UsageError where
  | unknownArgument (argument : Text)
  | unknownCommand (name : Text)
  | missingCommand
  | missingPath
  | missingValue (option : String)
  | emptyValue (option : String)
  | unexpectedValue (option : String)
  | repeated (option : String)
  | conflict (first second : String)
  deriving DecidableEq, Repr

/-- Why reading the arguments stopped before their end. -/
inductive Interruption where
  | help
  | version
  | usage (error : UsageError)
  deriving DecidableEq, Repr

inductive Flag where
  | help
  | version
  | verbose
  | out
  | pretty
  | encode
  | define
  | thenBranch
  deriving DecidableEq, Repr

inductive Subcommand where
  | build
  | check
  | tokens
  deriving DecidableEq, Repr

def UsageError.message : UsageError → String
  | .unknownArgument argument => "unexpected argument " ++ String.ofList argument
  | .unknownCommand name => "unrecognized subcommand " ++ String.ofList name
  | .missingCommand => "a subcommand is required"
  | .missingPath => "a template path is required"
  | .missingValue option => "a value is required for " ++ option
  | .emptyValue option => "the value of " ++ option ++ " cannot be empty"
  | .unexpectedValue option => option ++ " takes no value"
  | .repeated option => option ++ " cannot be used multiple times"
  | .conflict first second => first ++ " cannot be used with " ++ second

namespace Flag

def long : Flag → String
  | help => "--help"
  | version => "--version"
  | verbose => "--verbose"
  | out => "--out"
  | pretty => "--pretty"
  | encode => "--encode"
  | define => "--define"
  | thenBranch => "--then-branch"

def short? : Flag → Option Char
  | help => some 'h'
  | version => some 'V'
  | verbose => some 'v'
  | out => some 'o'
  | define => some 'D'
  | _ => none

def takesValue : Flag → Bool
  | out => true
  | define => true
  | _ => false

/-- The options in front of the subcommand. -/
def global : List Flag :=
  [help, version, verbose]

end Flag

namespace Subcommand

def name : Subcommand → String
  | build => "build"
  | check => "check"
  | tokens => "tokens"

def ofName? (name : Text) : Option Subcommand :=
  [build, check, tokens].find? (·.name.toList = name)

def flags : Subcommand → List Flag
  | build => [.help, .verbose, .out, .pretty, .encode, .define, .thenBranch]
  | _ => [.help, .verbose]

end Subcommand

/-- What has been read of the arguments. -/
structure Collected where
  path : Option Text := none
  out : Option Text := none
  verbose : Bool := false
  pretty : Bool := false
  encode : Bool := false
  thenBranch : Bool := false
  defines : List Text := []
  deriving DecidableEq, Repr

namespace Collected

def once (flag : Flag) (given : Bool) (next : Collected) : Except Interruption Collected :=
  if given then .error (.usage (.repeated flag.long)) else .ok next

/-- Only `--define` may be given more than once. -/
def set (c : Collected) (value : Text) : Flag → Except Interruption Collected
  | .help => .error .help
  | .version => .error .version
  | .verbose => once .verbose c.verbose { c with verbose := true }
  | .pretty => once .pretty c.pretty { c with pretty := true }
  | .encode => once .encode c.encode { c with encode := true }
  | .thenBranch => once .thenBranch c.thenBranch { c with thenBranch := true }
  | .define => .ok { c with defines := c.defines ++ [value] }
  | .out =>
    if value = [] then .error (.usage (.emptyValue Flag.out.long))
    else once .out c.out.isSome { c with out := some value }

def addPath (c : Collected) (path : Text) : Except Interruption Collected :=
  if c.path.isSome then .error (.usage (.unknownArgument path))
  else .ok { c with path := some path }

def renderOptions (c : Collected) : RenderOptions :=
  let layout := if c.pretty then RenderOptions.pretty else {}
  let branches :=
    if c.thenBranch then .thenBranch
    else if c.defines.isEmpty then .elseBranch
    else .flags c.defines
  { layout with autoEncode := c.encode, branches }

end Collected

/-- A single dash is an ordinary value. -/
def isOption : Text → Bool
  | '-' :: _ :: _ => true
  | _ => false

/-- Reads short options run together. A value is what follows its option, or is still to
come if nothing follows. -/
def readShort (known : List Flag) (c : Collected) :
    Text → Except Interruption (Collected × Option Flag)
  | [] => .ok (c, none)
  | letter :: rest =>
    match known.find? (·.short? = some letter) with
    | none => .error (.usage (.unknownArgument ['-', letter]))
    | some flag =>
      if flag.takesValue then
        match rest with
        | [] => .ok (c, some flag)
        | '=' :: value => (c.set value flag).map (·, none)
        | value => (c.set value flag).map (·, none)
      else do readShort known (← c.set [] flag) rest

def readLong (known : List Flag) (c : Collected) (argument : Text) :
    Except Interruption (Collected × Option Flag) :=
  match known.find? (·.long.toList = argument.takeWhile (· ≠ '=')) with
  | none => .error (.usage (.unknownArgument argument))
  | some flag =>
    match argument.dropWhile (· ≠ '='), flag.takesValue with
    | [], true => .ok (c, some flag)
    | [], false => (c.set [] flag).map (·, none)
    | _ :: value, true => (c.set value flag).map (·, none)
    | _ :: _, false => .error (.usage (.unexpectedValue flag.long))

/-- Reads an option, and returns it if its value is still to come. -/
def readOption (known : List Flag) (c : Collected) :
    Text → Except Interruption (Collected × Option Flag)
  | '-' :: '-' :: name => readLong known c ('-' :: '-' :: name)
  | '-' :: letters => readShort known c letters
  | argument => .error (.usage (.unknownArgument argument))

/-- Reads the arguments behind a subcommand, of which the first may be the value of an
option. Behind two dashes no options follow. -/
def readArguments (known : List Flag) (c : Collected) (pending : Option Flag) :
    List Text → Except Interruption Collected
  | [] =>
    match pending with
    | none => .ok c
    | some flag => .error (.usage (.missingValue flag.long))
  | argument :: rest =>
    match pending with
    | some flag =>
      if isOption argument then .error (.usage (.missingValue flag.long))
      else do readArguments known (← c.set argument flag) none rest
    | none =>
      if argument = ['-', '-'] then rest.foldlM Collected.addPath c
      else if isOption argument then do
        let (c, pending) ← readOption known c argument
        readArguments known c pending rest
      else do readArguments known (← c.addPath argument) none rest

def Collected.request (c : Collected) (subcommand : Subcommand) :
    Except Interruption Request :=
  match c.path, subcommand with
  | none, _ => .error (.usage .missingPath)
  | some path, .check => .ok (.check path)
  | some path, .tokens => .ok (.tokens path)
  | some path, .build =>
    if c.thenBranch && !c.defines.isEmpty then
      .error (.usage (.conflict Flag.thenBranch.long Flag.define.long))
    else .ok (.build path c.out c.renderOptions)

def helpName : Text :=
  ['h', 'e', 'l', 'p']

/-- Help may be asked for on one subcommand. -/
def readHelp : List Text → Interruption
  | [] => .help
  | [name] =>
    if name = helpName ∨ (Subcommand.ofName? name).isSome then .help
    else .usage (.unknownCommand name)
  | _ :: name :: _ => .usage (.unknownCommand name)

/-- Reads all arguments of a call. -/
def readCall (c : Collected) : List Text → Except Interruption Request
  | [] => .error (.usage .missingCommand)
  | argument :: rest =>
    if argument = ['-', '-'] then .error (.usage .missingCommand)
    else if isOption argument then do
      let (c, _) ← readOption Flag.global c argument
      readCall c rest
    else match Subcommand.ofName? argument with
      | some subcommand => do
        (← readArguments subcommand.flags {} none rest).request subcommand
      | none =>
        if argument = helpName then .error (readHelp rest)
        else .error (.usage (.unknownCommand argument))

end IndentMarkup.CommandLine
