import DnsZones.Path

/-!
# Command Line Options

What the program is told on its command line.

Two options are needed, the definition and the output directory; the other two
directories have defaults, and two flags set the configuration of zones that
have none. An option stands before its value or is joined to it by an equals
sign. Nothing may be given twice, and there are no arguments beside the options;
a word that begins with a dash is never the value of the option before it, so a
forgotten value is noticed.

## Main definitions

* `Options`: The options of a run.
* `Options.ofArguments?`: The options that a list of arguments gives.
-/

namespace DnsZones

/-- The options of a run. -/
structure Options where
  /-- The file with the zone definitions. -/
  definition : Path
  /-- The directory for zone files. -/
  output : Path
  /-- The directory with external plugins. -/
  plugins : Path
  /-- The directory with change indexes. -/
  serials : Path
  /-- Whether zones without a configuration take serial numbers from change indexes. -/
  generateSerial : Bool
  /-- Whether reverse zones are derived from zones without a configuration. -/
  reverse : Bool
  deriving DecidableEq, Repr

/-- The options found so far. -/
structure Arguments where
  /-- The file with the zone definitions. -/
  definition : Option String := none
  /-- The directory for zone files. -/
  output : Option String := none
  /-- The directory with external plugins. -/
  plugins : Option String := none
  /-- The directory with change indexes. -/
  serials : Option String := none
  /-- Whether serial numbers are taken from change indexes. -/
  generateSerial : Bool := false
  reverse : Bool := false

namespace Arguments

/-- Take a value that may be given once. -/
def once (before : Option String) (value : String) : Option (Option String) :=
  if before.isSome then none else some (some value)

/-- Take an option that has a value. -/
def setValue (known : Arguments) (name value : String) : Option Arguments :=
  match name with
  | "definition" => (once known.definition value).map fun v => { known with definition := v }
  | "output" => (once known.output value).map fun v => { known with output := v }
  | "plugins" => (once known.plugins value).map fun v => { known with plugins := v }
  | "serials" => (once known.serials value).map fun v => { known with serials := v }
  | _ => none

/-- Take a flag. -/
def setFlag (known : Arguments) (name : String) : Option Arguments :=
  match name with
  | "generate-serial" =>
    if known.generateSerial then none else some { known with generateSerial := true }
  | "reverse" => if known.reverse then none else some { known with reverse := true }
  | _ => none

/-- The name of an option and the value joined to it, if the word is an option. -/
def option? (word : String) : Option (String × Option String) :=
  match word.toList with
  | '-' :: '-' :: cs =>
    let name := String.ofList (cs.takeWhile (· != '='))
    match cs.dropWhile (· != '=') with
    | [] => some (name, none)
    | _ :: value => some (name, some (String.ofList value))
  | _ => none

/-- Whether a word can be the value of the option before it: it does not begin with a dash,
    or is nothing but one. -/
def isValue (word : String) : Bool := word == "-" || word.toList.head? != some '-'

/-- Take arguments one after the other. A lone `--` ends the options; as there are no other
    arguments, nothing may follow it. -/
def read (known : Arguments) : List String → Option Arguments
  | [] => some known
  | ["--"] => some known
  | word :: rest =>
    match option? word with
    | none => none
    | some (name, some value) =>
      match known.setValue name value with
      | some known => read known rest
      | none => none
    | some (name, none) =>
      match known.setFlag name with
      | some known => read known rest
      | none =>
        match rest with
        | [] => none
        | value :: rest =>
          if isValue value then
            match known.setValue name value with
            | some known => read known rest
            | none => none
          else none

end Arguments

namespace Options

/-- The options that arguments give, with defaults for those that may be missing. -/
def ofArguments? (arguments : List String) : Option Options :=
  match Arguments.read {} arguments with
  | none => none
  | some given =>
    match given.definition, given.output with
    | some definition, some output =>
      some {
        definition := ⟨definition⟩
        output := ⟨output⟩
        plugins := ⟨given.plugins.getD "plugins"⟩
        serials := ⟨given.serials.getD "serials"⟩
        generateSerial := given.generateSerial
        reverse := given.reverse }
    | _, _ => none

end Options

end DnsZones
