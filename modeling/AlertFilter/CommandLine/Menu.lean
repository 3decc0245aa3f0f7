/-!
# Menus of commands

A program offers commands, some of which are groups of further commands. Each level has options of
its own, and those that every level shares. An option is written `--name value` or `--name=value`
and is given at most once on a level; a value that is a word of its own does not begin with a
hyphen. Words are read from left to right, and the first that asks for help or for the version, or
that fits nowhere, decides.
-/

namespace AlertFilter

/-- An option; without a name for its value it takes none. -/
structure OptionEntry where
  name : String
  value : Option String
  required : Bool
  about : String

abbrev GivenOptions := List (String × String)

/-- A command tree that ends in values of type `α`; a command may refuse its options. -/
inductive Menu (α : Type) where
  | command (options : List OptionEntry) (make : GivenOptions → Option α)
  | group (entries : List (String × String × Menu α))

namespace Menu

variable {α : Type}

def options : Menu α → List OptionEntry
  | command options _ => options
  | group _ => []

def entries : Menu α → List (String × String × Menu α)
  | command _ _ => []
  | group entries => entries

/-- The command or group with a name, and what it is about. -/
def find? (menu : Menu α) (name : String) : Option (String × Menu α) :=
  (menu.entries.find? (·.1 = name)).map (·.2)

end Menu

structure Program (α : Type) where
  name : String
  version : String
  about : String
  shared : List OptionEntry
  menu : Menu α

/-- What the words of a command line ask for. -/
inductive Wish (α : Type) where
  | command (value : α) (shared : GivenOptions)
  | help (text : String)
  | version (text : String)
  /-- The words fit no command. -/
  | refused

/-- A word of the command line by its form. -/
inductive Word where
  /-- From here on no word is an option. -/
  | escape
  | long (name : String) (value : Option String)
  | short (letters : List Char)
  | plain

def Word.ofString (s : String) : Word :=
  match s.toList with
  | ['-', '-'] => escape
  | '-' :: '-' :: cs =>
    long (String.ofList (cs.takeWhile (· ≠ '='))) <|
      match cs.dropWhile (· ≠ '=') with
      | [] => none
      | _ :: value => some (String.ofList value)
  | '-' :: c :: cs => short (c :: cs)
  | _ => plain

def Word.isPlain : Word → Bool
  | plain => true
  | _ => false

/-- How far a command line has been read: the names of the commands, what the last of them is about,
its menu, and the options given for it and for those before it. -/
structure Place (α : Type) where
  path : List String
  about : String
  menu : Menu α
  given : GivenOptions
  outer : GivenOptions

namespace Program

variable {α : Type} (p : Program α)

def start : Place α := ⟨[], p.about, p.menu, [], []⟩

def optionsAt (place : Place α) : List OptionEntry := place.menu.options ++ p.shared

def helpEntry : String × String := ("-h, --help", "Print help")

def versionEntry : String × String := ("-V, --version", "Print version")

def helpCommand : String × String :=
  ("help", "Print this message or the help of the given subcommand(s)")

def formOf (o : OptionEntry) : String :=
  match o.value with
  | some value => "--" ++ o.name ++ " <" ++ value ++ ">"
  | none => "--" ++ o.name

/-- Lines of a form and an explanation, the latter below one another. -/
def helpLines (entries : List (String × String)) : String :=
  let width := (entries.map fun e => e.1.length).foldl max 0
  "\n".intercalate (entries.map fun e =>
    "  " ++ e.1 ++ String.ofList (List.replicate (width - e.1.length + 2) ' ') ++ e.2)

def helpText (place : Place α) : String :=
  let required := (p.optionsAt place).filter (·.required)
  let usage := [p.name] ++ place.path ++ ["[OPTIONS]"] ++ required.map formOf ++
    (if place.menu.entries.isEmpty then [] else ["<COMMAND>"])
  let options := (p.optionsAt place).map fun o => ("    " ++ formOf o, o.about)
  let fixed := if place.path.isEmpty then [helpEntry, versionEntry] else [helpEntry]
  let commands := place.menu.entries.map fun e => (e.1, e.2.1)
  (if place.about.isEmpty then "" else place.about ++ "\n\n") ++
    "Usage: " ++ " ".intercalate usage ++
    (if commands.isEmpty then "" else "\n\nCommands:\n" ++ helpLines (commands ++ [helpCommand])) ++
    "\n\nOptions:\n" ++ helpLines (options ++ fixed) ++ "\n"

def versionText : String := p.name ++ " " ++ p.version ++ "\n"

/-- The place of the command that names lead to; a group also has the command that explains. -/
def descend (place : Place α) : List String → Option (Place α)
  | [] => some place
  | name :: rest =>
    if name = helpCommand.1 ∧ ¬place.menu.entries.isEmpty then
      descend ⟨place.path ++ [name], helpCommand.2, .group [], [], []⟩ rest
    else match place.menu.find? name with
      | none => none
      | some (about, menu) => descend ⟨place.path ++ [name], about, menu, [], []⟩ rest

/-- At the end of the words a command is made of the options given, unless one is missing. -/
def finish (place : Place α) : Wish α :=
  let given := fun name => place.given.any (·.1 = name)
  if (p.optionsAt place).all fun o => !o.required || given o.name then
    match place.menu with
    | .group _ => .refused
    | .command _ make =>
      match make place.given with
      | some a => .command a (place.given ++ place.outer)
      | none => .refused
  else .refused

def read (place : Place α) : List String → Wish α
  | [] => p.finish place
  | word :: rest =>
    match Word.ofString word with
    | .escape => if rest.isEmpty then p.finish place else .refused
    | .short letters =>
      match letters with
      | 'h' :: _ => .help (p.helpText place)
      | 'V' :: _ => if place.path.isEmpty then .version p.versionText else .refused
      | _ => .refused
    | .long name value =>
      match (p.optionsAt place).find? (·.name = name) with
      | none =>
        if name = "help" ∧ value.isNone then .help (p.helpText place)
        else if name = "version" ∧ value.isNone ∧ place.path.isEmpty then .version p.versionText
        else .refused
      | some o =>
        if place.given.any (·.1 = name) then .refused
        else match o.value, value with
          | none, none => read { place with given := (name, "") :: place.given } rest
          | none, some _ => .refused
          | some _, some v => read { place with given := (name, v) :: place.given } rest
          | some _, none =>
            match rest with
            | [] => .refused
            | v :: rest =>
              if (Word.ofString v).isPlain then
                read { place with given := (name, v) :: place.given } rest
              else .refused
    | .plain =>
      if word = helpCommand.1 ∧ ¬place.menu.entries.isEmpty then
        match descend place rest with
        | some place => .help (p.helpText place)
        | none => .refused
      else match place.menu.find? word with
        | none => .refused
        | some (about, menu) =>
          read ⟨place.path ++ [word], about, menu, [], place.given ++ place.outer⟩ rest

def parse (words : List String) : Wish α := p.read p.start words

end Program

end AlertFilter
