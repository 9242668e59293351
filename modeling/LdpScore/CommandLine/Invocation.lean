import LdpScore.Settings

/-!
# Invocations

What the user asks for with the arguments of the command line.  A first argument
`check`, `dump`, `grammar` or `help` is a command; without a command, files are
checked.  Options may stand anywhere among the files, each of them once, and after
the argument `--` there are only files.

Arguments are read from left to right, and the first one that is wrong or that
asks for help or for the version decides.
-/

namespace LdpScore.CommandLine

/-- The files to check, and how. -/
structure CheckRequest where
  /-- Whether the model of each file is listed. -/
  listsModel : Bool := false
  /-- The files in order. -/
  files : List String := []
  settingsFile : Option String := none
  isStrict : Bool := false
  isVerbose : Bool := false
  color : Option ColorChoice := none
  arrows : Option ArrowStyle := none
deriving DecidableEq, Repr

/-- What the user asks for. -/
inductive Invocation where
  | check (request : CheckRequest)
  | grammar (element : Option String)
  | version (command : Option String)
  | help
deriving DecidableEq, Repr

/-- Why arguments make no sense. -/
inductive UsageError where
  | unknownOption (name : String)
  | repeatedOption (name : String)
  | needlessValue (name : String)
  | missingValue (name : String)
  | invalidValue (name value : String)
  | emptyFileName
  | missingFiles
  | extraArgument (argument : String)
  | unknownCommand (name : String)
deriving DecidableEq, Repr

def UsageError.message : UsageError → String
  | unknownOption name => s!"unknown option '{name}'"
  | repeatedOption name => s!"option '{name}' is given more than once"
  | needlessValue name => s!"option '{name}' takes no value"
  | missingValue name => s!"option '{name}' needs a value"
  | invalidValue name value => s!"'{value}' is no value of option '{name}'"
  | emptyFileName => "a file name is empty"
  | missingFiles => "no files are given"
  | extraArgument argument => s!"unexpected argument '{argument}'"
  | unknownCommand name => s!"unknown command '{name}'"

/-! ## Arguments -/

/-- The form of an argument. -/
inductive Argument where
  /-- The argument `--`. -/
  | endOfOptions
  /-- An option `--name` or `--name=value`. -/
  | long (name : String) (value : Option String)
  /-- Options of one letter each, after one hyphen. -/
  | short (letters : List Char)
  /-- Anything else; a single hyphen counts as a file name. -/
  | plain (text : String)
deriving DecidableEq, Repr

/-- The name of a long option, and its value after an equals sign. -/
def Argument.ofLong (text : List Char) : Argument :=
  let name := String.ofList (text.takeWhile (· != '='))
  match text.dropWhile (· != '=') with
  | _ :: value => .long name (some (String.ofList value))
  | [] => .long name none

def Argument.ofText (text : String) : Argument :=
  match text.toList with
  | ['-', '-'] => .endOfOptions
  | '-' :: '-' :: rest => .ofLong rest
  | ['-'] => .plain text
  | '-' :: letters => .short letters
  | _ => .plain text

/-! ## Options of a check -/

namespace CheckRequest

def addFile (request : CheckRequest) (file : String) : Except UsageError CheckRequest :=
  if file.isEmpty then .error .emptyFileName
  else .ok { request with files := request.files ++ [file] }

def addFiles (request : CheckRequest) (files : List String) : Except UsageError CheckRequest :=
  files.foldlM addFile request

def setStrict (request : CheckRequest) : Except UsageError CheckRequest :=
  if request.isStrict then .error (.repeatedOption "--strict")
  else .ok { request with isStrict := true }

def setVerbose (request : CheckRequest) : Except UsageError CheckRequest :=
  if request.isVerbose then .error (.repeatedOption "--verbose")
  else .ok { request with isVerbose := true }

def setSettingsFile (request : CheckRequest) (value : String) : Except UsageError CheckRequest :=
  if value.isEmpty then .error (.missingValue "--config")
  else if request.settingsFile.isSome then .error (.repeatedOption "--config")
  else .ok { request with settingsFile := some value }

/-- Chooses when output is colored. -/
def setColor (request : CheckRequest) (value : String) : Except UsageError CheckRequest :=
  match ColorChoice.ofName? value with
  | none => .error (.invalidValue "--color" value)
  | some choice =>
      if request.color.isSome then .error (.repeatedOption "--color")
      else .ok { request with color := some choice }

def setArrows (request : CheckRequest) (value : String) : Except UsageError CheckRequest :=
  match ArrowStyle.ofName? value with
  | none => .error (.invalidValue "--arrows" value)
  | some style =>
      if request.arrows.isSome then .error (.repeatedOption "--arrows")
      else .ok { request with arrows := some style }

/-- The options that take a value. -/
inductive Setting where
  | settingsFile
  | color
  | arrows
deriving DecidableEq, Repr

namespace Setting

def ofName? : String → Option Setting
  | "config" => some .settingsFile
  | "color" => some .color
  | "arrows" => some .arrows
  | _ => none

def name : Setting → String
  | .settingsFile => "config"
  | .color => "color"
  | .arrows => "arrows"

end Setting

def set (request : CheckRequest) (value : String) : Setting → Except UsageError CheckRequest
  | .settingsFile => request.setSettingsFile value
  | .color => request.setColor value
  | .arrows => request.setArrows value

def switch? : String → Option (CheckRequest → Except UsageError CheckRequest)
  | "strict" => some setStrict
  | "verbose" => some setVerbose
  | _ => none

/-- The request when all arguments have been read. -/
def finish (request : CheckRequest) : Except UsageError Invocation :=
  if request.files.isEmpty then .error .missingFiles else .ok (.check request)

end CheckRequest

/-! ## Reading arguments -/

/-- What a long option without a value asks for, if it is help or the version. -/
def information? (command : Option String) : String → Option Invocation
  | "help" => some .help
  | "version" => some (.version command)
  | _ => none

/-- What a short option asks for, if it is help or the version. -/
def shortInformation? (command : Option String) : Char → Option Invocation
  | 'h' => some .help
  | 'V' => some (.version command)
  | _ => none

/-- Reads short options; an invocation ends all reading. -/
def readShort (command : Option String) (request : CheckRequest) :
    List Char → Except UsageError (CheckRequest ⊕ Invocation)
  | [] => .ok (.inl request)
  | letter :: rest =>
      match shortInformation? command letter with
      | some invocation => .ok (.inr invocation)
      | none =>
          if letter = 'v' then do
            let request ← request.setVerbose
            readShort command request rest
          else .error (.unknownOption (String.ofList ['-', letter]))

/-- Reads a long option.  The result is the request, and the option whose value is
still to come; an invocation ends all reading. -/
def readLong (command : Option String) (request : CheckRequest) (name : String)
    (value : Option String) :
    Except UsageError ((CheckRequest × Option CheckRequest.Setting) ⊕ Invocation) :=
  match CheckRequest.Setting.ofName? name, CheckRequest.switch? name, information? command name with
  | some setting, _, _ =>
      match value with
      | some value => (request.set value setting).map fun request => .inl (request, none)
      | none => .ok (.inl (request, some setting))
  | none, some switch, _ =>
      match value with
      | some _ => .error (.needlessValue ("--" ++ name))
      | none => (switch request).map fun request => .inl (request, none)
  | none, none, some invocation =>
      match value with
      | some _ => .error (.needlessValue ("--" ++ name))
      | none => .ok (.inr invocation)
  | none, none, none => .error (.unknownOption ("--" ++ name))

/-- Reads the arguments of a check, of which the first may be due as the value of
an option. -/
def readCheck (command : Option String) :
    Option CheckRequest.Setting → CheckRequest → List String → Except UsageError Invocation
  | some setting, _, [] => .error (.missingValue ("--" ++ setting.name))
  | none, request, [] => request.finish
  | some setting, request, text :: rest =>
      match Argument.ofText text with
      | .plain value => do
          let request ← request.set value setting
          readCheck command none request rest
      | _ => .error (.missingValue ("--" ++ setting.name))
  | none, request, text :: rest =>
      match Argument.ofText text with
      | .plain file => do
          let request ← request.addFile file
          readCheck command none request rest
      | .endOfOptions => do
          let request ← request.addFiles rest
          request.finish
      | .short letters => do
          match ← readShort command request letters with
          | .inl request => readCheck command none request rest
          | .inr invocation => .ok invocation
      | .long name value => do
          match ← readLong command request name value with
          | .inl (request, due) => readCheck command due request rest
          | .inr invocation => .ok invocation

/-- Reads the arguments of the command that shows the grammar: at most the name of
one element. -/
def readGrammar (element : Option String) : List String → Except UsageError Invocation
  | [] => .ok (.grammar element)
  | text :: rest =>
      match Argument.ofText text with
      | .plain name =>
          if element.isSome then .error (.extraArgument name) else readGrammar (some name) rest
      | .endOfOptions =>
          match element, rest with
          | element, [] => .ok (.grammar element)
          | none, [name] => .ok (.grammar (some name))
          | none, _ :: extra :: _ => .error (.extraArgument extra)
          | some _, extra :: _ => .error (.extraArgument extra)
      | .short [] => .error (.unknownOption text)
      | .short (letter :: _) =>
          match shortInformation? (some "grammar") letter with
          | some invocation => .ok invocation
          | none => .error (.unknownOption text)
      | .long name value =>
          match information? (some "grammar") name, value with
          | some invocation, none => .ok invocation
          | some _, some _ => .error (.needlessValue ("--" ++ name))
          | none, _ => .error (.unknownOption ("--" ++ name))

/-- Reads what help is asked for: that of a command, or that of all. -/
def readHelp : List String → Except UsageError Invocation
  | [] => .ok .help
  | [command] =>
      if ["check", "dump", "grammar", "help"].contains command then .ok .help
      else .error (.unknownCommand command)
  | _ :: extra :: _ => .error (.unknownCommand extra)

/-- Reads the arguments of the command line. -/
def Invocation.ofArguments : List String → Except UsageError Invocation
  | "check" :: rest => readCheck (some "check") none {} rest
  | "dump" :: rest => readCheck (some "dump") none { listsModel := true } rest
  | "grammar" :: rest => readGrammar none rest
  | "help" :: rest => readHelp rest
  | arguments => readCheck none none {} arguments

end LdpScore.CommandLine
