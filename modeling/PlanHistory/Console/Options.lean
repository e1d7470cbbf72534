/-
Command lines: named commands, options and operands.

A `Menu` says which commands there are, inside one another, and what each takes.
`Menu.read` reads the words of a command line from left to right.  Options come before
or behind operands, in any order, each once at most at its level; the options in
`common` are known at every level, and the innermost level that gives one decides.
Behind `--` there are only operands.
-/
namespace PlanHistory

/-- An option, known by a name and perhaps a letter, with or without a value. -/
structure Switch where
  name : String
  letter? : Option Char
  /-- Which values are acceptable; `none` for an option without a value. -/
  accepts? : Option (String → Bool)
  isRequired : Bool

/-- What a command takes: options, and operands, all of which must be there. -/
structure Signature where
  switches : List Switch
  operands : List (String → Bool)

/-- Commands by name, some of which only hold further commands. -/
inductive Menu where
  | command (signature : Signature)
  | group (menus : List (String × Menu))

/-- What the words of a command line come to. -/
structure Reading where
  /-- The names of the commands, the innermost first. -/
  path : List String
  /-- The options of this level with their values, the latest first. -/
  given : List (String × String)
  /-- The options of the outer levels. -/
  outer : List (String × String)
  /-- The operands, the latest first. -/
  operands : List String

namespace Reading

/-- A command line without words. -/
def empty : Reading := ⟨[], [], [], []⟩

/-- The value of an option; the innermost level decides. -/
def option? (reading : Reading) (name : String) : Option String :=
  (reading.given ++ reading.outer).lookup name

/-- The reading one command further in. -/
def enter (reading : Reading) (name : String) : Reading :=
  { reading with
    path := name :: reading.path
    given := []
    outer := reading.given ++ reading.outer }

end Reading

/-- Why a command line does not give a command to carry out. -/
inductive Refusal where
  /-- It asks for help. -/
  | help
  /-- It asks which version of the program this is. -/
  | version
  /-- It is not well formed. -/
  | misuse
deriving DecidableEq, Repr

namespace Menu

/-- The options of a level. -/
def switches (common : List Switch) : Menu → List Switch
  | .command signature => signature.switches ++ common
  | .group _ => common

/-- The commands of a level. -/
def menus : Menu → List (String × Menu)
  | .command _ => []
  | .group menus => menus

/-- Record an option with its value. -/
def give (switch : Switch) (value : String) (reading : Reading) : Except Refusal Reading :=
  if (reading.given.lookup switch.name).isSome then .error .misuse
  else if (switch.accepts?.getD fun _ => true) value then
    .ok { reading with given := (switch.name, value) :: reading.given }
  else .error .misuse

/-- Record an operand. -/
def addOperand (menu : Menu) (word : String) (reading : Reading) : Except Refusal Reading :=
  match menu with
  | .group _ => .error .misuse
  | .command signature =>
    match signature.operands[reading.operands.length]? with
    | none => .error .misuse
    | some accepts =>
      if accepts word then .ok { reading with operands := word :: reading.operands }
      else .error .misuse

/-- Record operands. -/
def addOperands (menu : Menu) (words : List String) (reading : Reading) :
    Except Refusal Reading :=
  words.foldlM (fun reading word => addOperand menu word reading) reading

/-- What a word is. -/
inductive Word where
  /-- The end of the options. -/
  | escape
  /-- The name of an option, and a value behind an equals sign. -/
  | long (name : String) (value? : Option String)
  /-- Letters of options. -/
  | short (letters : List Char)
  | plain
deriving Repr

/-- What a word is. -/
def Word.ofText (text : String) : Word :=
  match text.toList with
  | ['-', '-'] => .escape
  | '-' :: '-' :: rest =>
    let name := String.ofList (rest.takeWhile (· != '='))
    match rest.dropWhile (· != '=') with
    | '=' :: value => .long name (some (String.ofList value))
    | _ => .long name none
  | '-' :: c :: rest => .short (c :: rest)
  | _ => .plain

/-- What an option and the text behind it in its word ask for: a refusal, an option
that is complete, or an option whose value is the next word. -/
inductive Request where
  | refuse (refusal : Refusal)
  | complete (switch : Switch) (value : String)
  | awaitValue (switch : Switch)

/-- What the name of an option asks for. -/
def longRequest (isOutermost : Bool) (switches : List Switch) (name : String)
    (value? : Option String) : Request :=
  match switches.find? fun switch => switch.name == name with
  | some switch =>
    match switch.accepts?, value? with
    | some _, some value => .complete switch value
    | some _, none => .awaitValue switch
    | none, some _ => .refuse .misuse
    | none, none => .complete switch ""
  | none =>
    if value?.isSome then .refuse .misuse
    else if name == "help" then .refuse .help
    else if name == "version" && isOutermost then .refuse .version
    else .refuse .misuse

/-- What the letter of an option asks for, with the rest of its word.  No option
without a value has a letter. -/
def shortRequest (isOutermost : Bool) (switches : List Switch) : List Char → Request
  | [] => .refuse .misuse
  | letter :: rest =>
    match switches.find? fun switch => switch.letter? == some letter with
    | some switch =>
      match rest with
      | [] => .awaitValue switch
      | '=' :: value => .complete switch (String.ofList value)
      | value => .complete switch (String.ofList value)
    | none =>
      if letter == 'h' then .refuse .help
      else if letter == 'V' && isOutermost then .refuse .version
      else .refuse .misuse

/-- Whether the commands named one inside the other are there; `help` always is. -/
def offers : Menu → List String → Bool
  | _, [] => true
  | menu, name :: names =>
    match menu.menus.lookup name with
    | some menu => offers menu names
    | none => name == "help" && !menu.menus.isEmpty && names.isEmpty

/-- Whether nothing that must be there is missing. -/
def isComplete (menu : Menu) (reading : Reading) : Bool :=
  match menu with
  | .group _ => false
  | .command signature =>
    reading.operands.length == signature.operands.length
      && signature.switches.all fun switch =>
        !switch.isRequired || (reading.given.lookup switch.name).isSome

/-- Read words at a level of a menu, behind what is read so far. -/
def readFrom (common : List Switch) (menu : Menu) (reading : Reading) :
    List String → Except Refusal Reading
  | [] => if isComplete menu reading then .ok reading else .error .misuse
  | word :: words =>
    let request? : Option Request :=
      let isOutermost := reading.path.isEmpty
      match Word.ofText word with
      | .long name value? => some (longRequest isOutermost (switches common menu) name value?)
      | .short letters => some (shortRequest isOutermost (switches common menu) letters)
      | _ => none
    match request? with
    | some (.refuse refusal) => .error refusal
    | some (.complete switch value) =>
      (give switch value reading).bind fun reading => readFrom common menu reading words
    | some (.awaitValue switch) =>
      match words with
      | [] => .error .misuse
      | value :: words =>
        match Word.ofText value with
        | .plain =>
          (give switch value reading).bind fun reading => readFrom common menu reading words
        | _ => .error .misuse
    | none =>
      match menu.menus.lookup word with
      | some inner => readFrom common inner (reading.enter word) words
      | none =>
        match Word.ofText word with
        | .escape =>
          (addOperands menu words reading).bind fun reading =>
            if isComplete menu reading then .ok reading else .error .misuse
        | _ =>
          if word == "help" && !menu.menus.isEmpty then
            .error (if offers menu words then .help else .misuse)
          else
            (addOperand menu word reading).bind fun reading =>
              readFrom common menu reading words

/-- Read the words of a command line. -/
def read (common : List Switch) (menu : Menu) (words : List String) :
    Except Refusal Reading :=
  readFrom common menu Reading.empty words

end Menu

end PlanHistory
