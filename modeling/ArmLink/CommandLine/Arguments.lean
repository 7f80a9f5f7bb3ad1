import ArmLink.CommandLine.Kind

/-!
# Arguments of a program

A program is called with a list of arguments. Those that begin with a hyphen are
options: `--name` for one with a long name, `-x` for one or several with a letter
each, and a lone `--` after which nothing is an option any more. An option may
take a value, which is either attached to it or the next argument; the next
argument is never taken for a value when it looks like an option itself. All
other arguments are operands, of which a level of the command line takes so many
and no more, or the name of a command, behind which the next level begins.

No option may be given twice at one level, and every value has to be of its kind.
Asking for help or for the version ends the reading there and then, but not
before everything in front of it has been found in order.
-/

namespace ArmLink.CommandLine

inductive Effect where
  | switch
  | setting (kind : Kind)
  | help
  | version
  deriving DecidableEq, Repr

/-- An option of a program. -/
structure Flag where
  name : String
  letter : Option Char
  effect : Effect
  deriving DecidableEq, Repr

/-- Why no more arguments are read. -/
inductive Stop where
  | misuse
  | help
  | version
  deriving DecidableEq, Repr

/-- What a level of the command line takes. -/
structure Level where
  flags : List Flag
  operands : List Kind
  commands : List String
  deriving DecidableEq, Repr

/-- What was given at one level. -/
structure Given where
  settings : List (String × String)
  switches : List String
  operands : List String
  deriving DecidableEq, Repr

namespace Given

def nothing : Given := ⟨[], [], []⟩

def setting? (given : Given) (name : String) : Option String :=
  (given.settings.find? fun (key, _) => key = name).map Prod.snd

def has (given : Given) (name : String) : Bool :=
  given.switches.contains name

def addSetting (name : String) (kind : Kind) (value : String) (given : Given) :
    Except Stop Given :=
  if (given.setting? name).isSome ∨ ¬ kind.admits value then .error .misuse
  else .ok { given with settings := given.settings ++ [(name, value)] }

def addSwitch (name : String) (given : Given) : Except Stop Given :=
  if given.has name then .error .misuse
  else .ok { given with switches := given.switches ++ [name] }

/-- One more operand, where these are the kinds of all there may be. -/
def addOperand (kinds : List Kind) (given : Given) (text : String) : Except Stop Given :=
  match kinds[given.operands.length]? with
  | some kind =>
    if kind.admits text then .ok { given with operands := given.operands ++ [text] }
    else .error .misuse
  | none => .error .misuse

end Given

/-- How an argument looks. -/
inductive Shape where
  | divider
  /-- A long name, and the value attached to it. -/
  | long (name : String) (value : Option String)
  /-- Letters, of which the last may have a value attached. -/
  | letters (letters : List Char)
  | plain
  deriving DecidableEq, Repr

/-- How the characters of an argument look. A lone hyphen is no option. -/
def Shape.ofChars : List Char → Shape
  | ['-', '-'] => .divider
  | '-' :: '-' :: rest =>
    let name := rest.takeWhile (· ≠ '=')
    match rest.dropWhile (· ≠ '=') with
    | [] => .long (String.ofList name) none
    | _ :: value => .long (String.ofList name) (some (String.ofList value))
  | '-' :: c :: rest => .letters (c :: rest)
  | _ => .plain

def Shape.of (argument : String) : Shape :=
  .ofChars argument.toList

namespace Level

/-- Takes a long option with the value attached to it. Also gives the name of the option and the
kind of its value when it still wants one. -/
def takeLong (level : Level) (name : String) (value : Option String) (given : Given) :
    Except Stop (Given × Option (String × Kind)) :=
  match level.flags.find? (·.name == name) with
  | none => .error .misuse
  | some flag =>
    match flag.effect, value with
    | .setting kind, some value => do return (← given.addSetting name kind value, none)
    | .setting kind, none => .ok (given, some (name, kind))
    | .switch, none => do return (← given.addSwitch name, none)
    | .help, none => .error .help
    | .version, none => .error .version
    | _, some _ => .error .misuse

/-- Takes options by their letters. What stands behind the letter of an option with a value is that
value, with or without an equals sign between. Also gives the name of the last option and the kind
of its value when it still wants one. -/
def takeLetters (level : Level) :
    List Char → Given → Except Stop (Given × Option (String × Kind))
  | [], given => .ok (given, none)
  | c :: rest, given =>
    match level.flags.find? (·.letter == some c) with
    | none => .error .misuse
    | some flag =>
      match flag.effect, rest with
      | .switch, rest => do level.takeLetters rest (← given.addSwitch flag.name)
      | .help, _ => .error .help
      | .version, _ => .error .version
      | .setting kind, [] => .ok (given, some (flag.name, kind))
      | .setting kind, '=' :: value => do
        return (← given.addSetting flag.name kind (String.ofList value), none)
      | .setting kind, value => do
        return (← given.addSetting flag.name kind (String.ofList value), none)

def takeOptions (level : Level) (argument : String) (given : Given) :
    Except Stop (Given × Option (String × Kind)) :=
  match Shape.of argument with
  | .long name value => level.takeLong name value given
  | .letters letters => level.takeLetters letters given
  | .divider | .plain => .error .misuse

/-- Takes the arguments of a level. Gives what they say, and the arguments from the name of a
command on. -/
def take (level : Level) : List String → Given → Except Stop (Given × List String)
  | [], given => .ok (given, [])
  | argument :: rest, given =>
    match Shape.of argument with
    | .divider => do return (← rest.foldlM (Given.addOperand level.operands) given, [])
    | .plain =>
      if level.commands.contains argument then .ok (given, argument :: rest)
      else
        match given.addOperand level.operands argument with
        | .ok given => level.take rest given
        | .error stop => .error stop
    | _ =>
      match level.takeOptions argument given, rest with
      | .error stop, _ => .error stop
      | .ok (given, none), rest => level.take rest given
      | .ok (_, some _), [] => .error .misuse
      | .ok (given, some (name, kind)), value :: rest =>
        if Shape.of value = .plain then
          match given.addSetting name kind value with
          | .ok given => level.take rest given
          | .error stop => .error stop
        else .error .misuse

end Level

end ArmLink.CommandLine
