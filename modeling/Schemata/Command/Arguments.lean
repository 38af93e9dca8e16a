import Schemata.Command.Settings
namespace Schemata

/-! Command lines.

Options are read from the left; the first thing that ends the reading, a fault or a
request for the version or for help, decides.  The options for verbosity and for the
configuration file may stand before and after the command. -/

inductive Command where
  | generate (flags : Flags)
  | check (source : Option String)
deriving DecidableEq

inductive Arguments where
  | run (config : Option String) (command : Command)
  | version
  | help
  /-- The line does not say what to do, or says it wrongly. -/
  | misuse
deriving DecidableEq

namespace Arguments

inductive Part where
  | start
  | generate
  | check
deriving DecidableEq

structure Reading where
  part : Part := .start
  /-- The configuration file named before the command. -/
  outerConfig : Option String := none
  config : Option String := none
  flags : Flags := {}

/-- Sets an option that takes a value.  None if the part has no such option, if it is
set already, or if a path is empty. -/
def Reading.setValue (reading : Reading) (option value : String) : Option Reading :=
  let once (current : Option String) (next : Reading) : Option Reading :=
    if current.isSome then none else some next
  let path (next : Option Reading) : Option Reading := if value.isEmpty then none else next
  match option, reading.part with
  | "config", _ => path (once reading.config { reading with config := value })
  | "src", .generate | "src", .check =>
      path (once reading.flags.source
        { reading with flags := { reading.flags with source := value } })
  | "out", .generate =>
      path (once reading.flags.output
        { reading with flags := { reading.flags with output := value } })
  | "pkg-path", .generate =>
      once reading.flags.package
        { reading with flags := { reading.flags with package := value } }
  | _, _ => none

def takesValue (part : Part) (option : String) : Bool :=
  option = "config" || (option = "src" && part ≠ .start) ||
    ((option = "out" || option = "pkg-path") && part = .generate)

/-- Reads letters after a single dash; the second answer ends the reading. -/
def shortOptions (part : Part) : List Char → Option Arguments
  | [] => none
  | 'v' :: rest => shortOptions part rest
  | 'h' :: _ => some .help
  | 'V' :: _ => some (if part = .start then .version else .misuse)
  | _ => some .misuse

def Reading.setFlag (reading : Reading) (option : String) : Except Arguments Reading :=
  match option, reading.part with
  | "verbose", _ => .ok reading
  | "help", _ => .error .help
  | "version", .start => .error .version
  | "force", .generate =>
      if reading.flags.force then .error .misuse
      else .ok { reading with flags := { reading.flags with force := true } }
  | _, _ => .error .misuse

/-- What a request for help by name asks for: the program, or one of its commands. -/
def helpOn : List String → Arguments
  | [] => .help
  | [name] => if name ∈ ["generate", "check", "help"] then .help else .misuse
  | _ => .misuse

/-- Reads the name of a command; a request for help takes the rest of the line. -/
def Reading.enter (reading : Reading) (name : String) (rest : List String) :
    Except Arguments Reading :=
  match name, reading.part with
  | "generate", .start =>
      .ok { reading with part := .generate, outerConfig := reading.config, config := none }
  | "check", .start =>
      .ok { reading with part := .check, outerConfig := reading.config, config := none }
  | "help", .start => .error (helpOn rest)
  | _, _ => .error .misuse

def Reading.finish (reading : Reading) : Arguments :=
  let config := reading.config <|> reading.outerConfig
  match reading.part with
  | .start => .misuse
  | .generate => .run config (.generate reading.flags)
  | .check => .run config (.check reading.flags.source)

/-- A long option, and its value if it is attached to it. -/
def splitLong (text : List Char) : String × Option String :=
  match text.dropWhile (· ≠ '=') with
  | [] => (String.ofList text, none)
  | _ :: value => (String.ofList (text.takeWhile (· ≠ '=')), some (String.ofList value))

/-- Text after a dash cannot be the value of an option. -/
def isValue (text : String) : Bool := text.toList.head? ≠ some '-' || text = "-"

def read (reading : Reading) : List String → Arguments
  | [] => reading.finish
  | argument :: rest =>
      match argument.toList with
      | ['-', '-'] => if rest.isEmpty then reading.finish else .misuse
      | '-' :: '-' :: long =>
          let (option, attached) := splitLong long
          if takesValue reading.part option then
            match attached, rest with
            | some value, rest =>
                match reading.setValue option value with
                | some next => read next rest
                | none => .misuse
            | none, value :: rest =>
                if isValue value then
                  match reading.setValue option value with
                  | some next => read next rest
                  | none => .misuse
                else .misuse
            | none, [] => .misuse
          else if attached.isSome then .misuse
          else
            match reading.setFlag option with
            | .ok next => read next rest
            | .error decided => decided
      | '-' :: letter :: letters =>
          match shortOptions reading.part (letter :: letters) with
          | some decided => decided
          | none => read reading rest
      | _ =>
          match reading.enter argument rest with
          | .ok next => read next rest
          | .error decided => decided

def ofList (arguments : List String) : Arguments := read {} arguments

end Arguments

end Schemata
