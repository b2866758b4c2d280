import DecoratorVeil.Text.Integer

/-!
# Command-line options

Reading the arguments of the program.  Options may stand anywhere before a double dash, short ones
may be joined, and an option with a value takes the rest of its argument or the next argument,
whatever that is.  Of an option given twice the last value counts.
-/

namespace DecoratorVeil.CommandLine

inductive OptionName where
  | check
  | write
  | config
  | stdinPath
  | jobs
  | verbose
  | help
  deriving DecidableEq, Repr

namespace OptionName

def takesValue : OptionName → Bool
  | .config | .stdinPath | .jobs => true
  | .check | .write | .verbose | .help => false

def ofLong? : String → Option OptionName
  | "--check" => some .check
  | "--write" => some .write
  | "--config" => some .config
  | "--stdin-filepath" => some .stdinPath
  | "--jobs" => some .jobs
  | "--verbose" => some .verbose
  | "--help" => some .help
  | _ => none

def ofShort? : Char → Option OptionName
  | 'c' => some .check
  | 'w' => some .write
  | 'j' => some .jobs
  | 'v' => some .verbose
  | 'h' => some .help
  | _ => none

end OptionName

inductive Item where
  | flag (name : OptionName)
  | value (name : OptionName) (text : String)
  | file (path : String)
  deriving DecidableEq, Repr

/-- The items of one argument, and the option at its end that still needs a value. -/
structure Reading where
  items : List Item
  wanting : Option OptionName

def splitAssignment (argument : List Char) : List Char × Option (List Char) :=
  match argument.dropWhile (· != '=') with
  | [] => (argument, none)
  | _ :: value => (argument.takeWhile (· != '='), some value)

def readLong (argument : List Char) : Option Reading :=
  let (name, value) := splitAssignment argument
  match OptionName.ofLong? (String.ofList name), value with
  | none, _ => none
  | some option, some text =>
    if option.takesValue then some ⟨[.value option (String.ofList text)], none⟩ else none
  | some option, none =>
    if option.takesValue then some ⟨[], some option⟩ else some ⟨[.flag option], none⟩

/-- Reads joined short options; one with a value takes all that follows it. -/
def readShort : List Char → Option Reading
  | [] => some ⟨[], none⟩
  | c :: rest =>
    match OptionName.ofShort? c with
    | none => none
    | some option =>
      if option.takesValue then
        if rest.isEmpty then some ⟨[], some option⟩
        else some ⟨[.value option (String.ofList rest)], none⟩
      else (readShort rest).map fun more => { more with items := .flag option :: more.items }

def readArgument (argument : String) : Option Reading :=
  match argument.toList with
  | '-' :: '-' :: rest => readLong ('-' :: '-' :: rest)
  | '-' :: c :: rest => readShort (c :: rest)
  | _ => some ⟨[.file argument], none⟩

/-- Reads all arguments, or nothing if one is no option or lacks its value. -/
def readArguments : List String → Option (List Item)
  | [] => some []
  | argument :: rest =>
    if argument == "--" then some (rest.map .file)
    else
      match readArgument argument with
      | none => none
      | some ⟨items, none⟩ => (readArguments rest).map (items ++ ·)
      | some ⟨items, some option⟩ =>
        match rest with
        | [] => none
        | text :: others => (readArguments others).map (items ++ .value option text :: ·)

structure Request where
  files : List String
  check : Bool
  write : Bool
  config : Option String
  stdinPath : Option String
  jobs : Option Nat
  verbose : Bool
  deriving DecidableEq, Repr

inductive Parsed where
  | usageError
  | help
  | request (request : Request)
  deriving DecidableEq, Repr

def hasFlag (items : List Item) (name : OptionName) : Bool :=
  items.contains (.flag name)

def lastValue? (items : List Item) (name : OptionName) : Option String :=
  items.reverse.findSome? fun
    | .value found text => if found = name then some text else none
    | _ => none

def filesOf (items : List Item) : List String :=
  items.filterMap fun
    | .file path => some path
    | _ => none

/-- A number of jobs is at least one. -/
def readJobs (text : String) : Option Nat :=
  match Text.Integer.ofAnyScript? text.toList with
  | some (.ofNat n) => if n = 0 then none else some n
  | _ => none

/-- The request of all items.  Help is given before values are looked at. -/
def requestOf (items : List Item) : Parsed :=
  if hasFlag items .help then .help
  else
    let finish (jobs : Option Nat) : Parsed := .request {
      files := filesOf items
      check := hasFlag items .check
      write := hasFlag items .write
      config := lastValue? items .config
      stdinPath := lastValue? items .stdinPath
      jobs := jobs
      verbose := hasFlag items .verbose }
    match lastValue? items .jobs with
    | none => finish none
    | some text =>
      match readJobs text with
      | none => .usageError
      | some n => finish (some n)

def parse (arguments : List String) : Parsed :=
  match readArguments arguments with
  | none => .usageError
  | some items => requestOf items

end DecoratorVeil.CommandLine
