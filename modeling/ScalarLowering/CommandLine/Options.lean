/-!
The options of the command line. Arguments are taken one after another, and the first one that is
wrong ends the run, as do the questions for help and for the version. An option's value is the rest of
its argument or the next argument; column names may be given several times and add up.
-/

namespace ScalarLowering.CommandLine

inductive Format where
  | text
  | outline
  | bytes
  deriving DecidableEq

def Format.ofName? (name : String) : Option Format :=
  if name = "text" then some .text
  else if name = "debug" then some .outline
  else if name = "bincode" then some .bytes
  else none

inductive Setting where
  | columns
  | format
  deriving DecidableEq

/-- What the arguments so far have said. -/
structure Given where
  columns : Option (List String)
  format : Option Format
  debug : Bool
  pending : Option Setting

inductive Stop where
  | help
  | version
  | usage
  deriving DecidableEq

def splitCommas : List Char → List (List Char)
  | [] => [[]]
  | ',' :: rest => [] :: splitCommas rest
  | c :: rest =>
      match splitCommas rest with
      | [] => [[c]]
      | first :: others => (c :: first) :: others

namespace Given

def nothing : Given := ⟨none, none, false, none⟩

/-- Gives an option its value. The format can be given once only. -/
def set (given : Given) (setting : Setting) (value : List Char) : Except Stop Given :=
  match setting with
  | .columns =>
      let names := (splitCommas value).map String.ofList
      .ok ⟨some (given.columns.getD [] ++ names), given.format, given.debug, none⟩
  | .format =>
      match given.format, Format.ofName? (String.ofList value) with
      | none, some format => .ok ⟨given.columns, some format, given.debug, none⟩
      | _, _ => .error .usage

/-- Sees an option that takes a value, which may still be to come. -/
def option (given : Given) (setting : Setting) : Option (List Char) → Except Stop Given
  | some value => given.set setting value
  | none => .ok ⟨given.columns, given.format, given.debug, some setting⟩

def setDebug (given : Given) : Except Stop Given :=
  if given.debug then .error .usage else .ok ⟨given.columns, given.format, true, given.pending⟩

/-- The value of a short option, if its argument goes on. One equals sign may stand in front. -/
def attached : List Char → Option (List Char)
  | [] => none
  | '=' :: value => some value
  | value => some value

def short (given : Given) : List Char → Except Stop Given
  | [] => .ok given
  | letter :: rest =>
      if letter = 'd' then do
        let next ← given.setDebug
        short next rest
      else if letter = 'h' then .error .help
      else if letter = 'V' then .error .version
      else if letter = 'c' then given.option .columns (attached rest)
      else if letter = 'f' then given.option .format (attached rest)
      else .error .usage

def long (given : Given) (name : String) (value : Option (List Char)) : Except Stop Given :=
  if name = "columns" then given.option .columns value
  else if name = "format" then given.option .format value
  else if value.isSome then .error .usage
  else if name = "debug" then given.setDebug
  else if name = "help" then .error .help
  else if name = "version" then .error .version
  else .error .usage

def assigned (argument : List Char) : Option (List Char) :=
  match argument.dropWhile (· != '=') with
  | [] => none
  | _ :: value => some value

/-- Takes the next argument. An argument that starts with a dash, one dash alone apart, is an
option, and no option may come before a pending value. Any other argument has to be a pending
value. -/
def next (given : Given) (argument : List Char) : Except Stop Given :=
  match argument, given.pending with
  | '-' :: '-' :: rest, none =>
      given.long (String.ofList (rest.takeWhile (· != '='))) (assigned rest)
  | '-' :: letter :: rest, none => given.short (letter :: rest)
  | '-' :: _ :: _, some _ => .error .usage
  | value, some setting => given.set setting value
  | _, none => .error .usage

/-- Takes all arguments. Two dashes alone end the options, and nothing may follow them. -/
def takeAll (given : Given) : List String → Except Stop Given
  | [] => if given.pending.isSome then .error .usage else .ok given
  | argument :: rest =>
      if argument = "--" then
        if rest.isEmpty && given.pending.isNone then .ok given else .error .usage
      else do
        let next ← given.next argument.toList
        takeAll next rest

end Given

structure Options where
  columns : List String
  format : Format
  debug : Bool

def defaultColumns : List String := ["id", "name", "price", "active", "address"]

def parse (arguments : List String) : Except Stop Options :=
  (Given.nothing.takeAll arguments).map fun given =>
    ⟨given.columns.getD defaultColumns, given.format.getD .text, given.debug⟩

end ScalarLowering.CommandLine
