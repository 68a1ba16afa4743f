import Refit.Text.Quoted
import Refit.Text.Search

namespace Refit.CommandLine

inductive Effect where
  | help
  | flag
  /-- It takes a value, which may have to be one of some choices. -/
  | value (placeholder : String) (choices : List String)
  deriving DecidableEq

structure Setting where
  names : List String
  effect : Effect
  about : String
  deriving DecidableEq

inductive Positional where
  | optional (name about : String)
  | command (name : String) (choices : List (String × String))
  deriving DecidableEq

structure Command where
  program : String
  about : Option String
  settings : List Setting
  positional : Positional

def Setting.title (setting : Setting) : String := String.intercalate "/" setting.names

def Setting.key (setting : Setting) : String := setting.names.getLast?.getD ""

def braced (choices : List String) : String := "\x7b" ++ String.intercalate "," choices ++ "\x7d"

def Setting.placeholder (setting : Setting) : Option String :=
  match setting.effect with
  | .value placeholder choices => some (if choices.isEmpty then placeholder else braced choices)
  | _ => none

def Positional.name : Positional → String
  | .optional name _ => name
  | .command name _ => name

namespace Command

def namedSettings (command : Command) : List (String × Setting) :=
  command.settings.flatMap (fun setting => setting.names.map (fun name => (name, setting)))

def setting? (command : Command) (name : String) : Option Setting := command.namedSettings.lookup name

end Command

inductive Stop where
  | help
  | fault (message : String)
  deriving DecidableEq

def faultOf {α : Type} (title message : String) : Except Stop α :=
  .error (.fault ("argument " ++ title ++ ": " ++ message))

structure Attached where
  marked : Bool
  text : String
  deriving DecidableEq

structure Occurrence where
  setting : Option Setting
  name : String
  attached : Option Attached

inductive Mark where
  | option (occurrence : Occurrence)
  | argument
  | separator

def divide (text : String) : String × Option String :=
  let chars := text.toList
  let name := chars.takeWhile (· ≠ '=')
  match chars.drop name.length with
  | [] => (text, none)
  | _ :: value => (String.ofList name, some (String.ofList value))

/-- A dash and a number, which is no option. -/
def isNegative (text : String) : Bool :=
  match text.toList with
  | '-' :: rest =>
    let whole := rest.takeWhile Char.isDigit
    match rest.drop whole.length with
    | [] => !whole.isEmpty
    | '.' :: fraction => !fraction.isEmpty && fraction.all Char.isDigit
    | _ => false
  | _ => false

namespace Command

def abbreviated (command : Command) (text : String) : List Occurrence :=
  let (start, value) := divide text
  (command.namedSettings.filter (fun named => Text.startsWith named.1 start)).map
    (fun named => ⟨some named.2, named.1, value.map (⟨true, ·⟩)⟩)

/-- The options that an argument with one dash may be: one of a letter with more after it, or one
    that it abbreviates. -/
def clustered (command : Command) (text : String) : List Occurrence :=
  let letter := String.ofList (text.toList.take 2)
  command.namedSettings.filterMap (fun named =>
    if named.1 = letter then some ⟨some named.2, named.1, some ⟨false, Text.drop 2 text⟩⟩
    else if Text.startsWith named.1 text then some ⟨some named.2, named.1, none⟩
    else none)

def markOf (command : Command) (text : String) : Except Stop Mark :=
  if !Text.startsWith text "-" then .ok .argument
  else
    match command.setting? text with
    | some setting => .ok (.option ⟨some setting, text, none⟩)
    | none =>
      if text.length = 1 then .ok .argument
      else
        let (name, value) := divide text
        match value, command.setting? name with
        | some value, some setting => .ok (.option ⟨some setting, name, some ⟨true, value⟩⟩)
        | _, _ =>
          let meant :=
            if Text.startsWith text "--" then command.abbreviated text else command.clustered text
          match meant with
          | [occurrence] => .ok (.option occurrence)
          | [] =>
            if isNegative text || Text.contains text " " then .ok .argument
            else .ok (.option ⟨none, text, none⟩)
          | several =>
            .error (.fault ("ambiguous option: " ++ text ++ " could match "
              ++ String.intercalate ", " (several.map (·.name))))

def marksOf (command : Command) : List String → Except Stop (List (String × Mark))
  | [] => .ok []
  | text :: rest =>
    if text = "--" then .ok ((text, .separator) :: rest.map (fun text => (text, .argument)))
    else do
      let mark ← command.markOf text
      let others ← command.marksOf rest
      pure ((text, mark) :: others)

end Command

/-- What was read: options with their values, the arguments of the positional one, and arguments that
    nothing takes. -/
structure Arguments where
  options : List (String × Option String) := []
  positional : Option (List String) := none
  extras : List String := []

structure Taken where
  options : List (Setting × Option String)
  extras : List String := []
  following : Nat := 0

def ignored {α : Type} (setting : Setting) (text : String) : Except Stop α :=
  faultOf setting.title ("ignored explicit argument " ++ Text.Quoted.encode text)

def isArgument : Mark → Bool
  | .argument => true
  | _ => false

def attachedRest (rest : List Char) : Option Attached :=
  match rest with
  | [] => none
  | '=' :: value => some ⟨true, String.ofList value⟩
  | rest => some ⟨false, String.ofList rest⟩

def take (command : Command) (following : List (String × Mark)) :
    Nat → Setting → String → Option Attached → Except Stop Taken
  | 0, setting, _, _ => ignored setting ""
  | fuel + 1, setting, name, attached =>
    match setting.effect, attached with
    | .value .., some attached => .ok ⟨[(setting, some attached.text)], [], 0⟩
    | .value .., none =>
      match following with
      | (text, .argument) :: _ => .ok ⟨[(setting, some text)], [], 1⟩
      | _ => faultOf setting.title "expected one argument"
    | _, none => .ok ⟨[(setting, none)], [], 0⟩
    | _, some attached =>
      match attached.text.toList with
      | [] => ignored setting attached.text
      | letter :: rest =>
        if Text.startsWith name "--" || attached.marked || letter = '-' then
          ignored setting attached.text
        else
          let next := String.ofList ['-', letter]
          match command.setting? next with
          | none => .ok ⟨[(setting, none)], ["-" ++ attached.text], 0⟩
          | some other => do
              let taken ← take command following fuel other next (attachedRest rest)
              pure { taken with options := (setting, none) :: taken.options }

def checkChoice (title : String) (choices : List String) (value : String) : Except Stop Unit :=
  if choices.isEmpty || choices.contains value then .ok ()
  else
    faultOf title ("invalid choice: " ++ Text.Quoted.encode value ++ " (choose from "
      ++ String.intercalate ", " (choices.map Text.Quoted.encode) ++ ")")

def apply (arguments : Arguments) (option : Setting × Option String) : Except Stop Arguments := do
  match option.1.effect, option.2 with
  | .help, _ => throw .help
  | .value _ choices, some value => checkChoice option.1.title choices value
  | _, _ => pure ()
  pure { arguments with options := arguments.options ++ [(option.1.key, option.2)] }

def isSeparator : Mark → Bool
  | .separator => true
  | _ => false

def Positional.extent (positional : Positional) (items : List (String × Mark)) : Option Nat :=
  let leading := (items.takeWhile (fun item => isSeparator item.2)).length
  let rest := items.drop leading
  match positional with
  | .command .. => if rest.head?.any (fun item => isArgument item.2) then some items.length else none
  | .optional .. =>
    let taken := if rest.head?.any (fun item => isArgument item.2) then 1 else 0
    let trailing := ((rest.drop taken).takeWhile (fun item => isSeparator item.2)).length
    some (leading + taken + trailing)

def takePositional (command : Command) (items : List (String × Mark)) (arguments : Arguments) :
    Except Stop (List (String × Mark) × Arguments) := do
  match arguments.positional, command.positional.extent items with
  | none, some count =>
    let texts := (items.take count).map (·.1)
    match command.positional with
    | .optional .. => pure (items.drop count, { arguments with positional := some (texts.erase "--") })
    | .command name choices => do
        checkChoice name (choices.map (·.1)) (texts.headD "")
        pure (items.drop count, { arguments with positional := some texts })
  | _, _ => pure (items, arguments)

def isOption : Mark → Bool
  | .option _ => true
  | _ => false

def takeOption (command : Command) (items : List (String × Mark)) (arguments : Arguments) :
    Except Stop (List (String × Mark) × Arguments) :=
  match items with
  | (text, .option occurrence) :: rest =>
    match occurrence.setting with
    | none => .ok (rest, { arguments with extras := arguments.extras ++ [text] })
    | some setting => do
        let taken ← take command rest (text.length + 1) setting occurrence.name occurrence.attached
        let arguments := { arguments with extras := arguments.extras ++ taken.extras }
        let arguments ← taken.options.foldlM apply arguments
        pure (rest.drop taken.following, arguments)
  | _ => .ok (items, arguments)

def readItems (command : Command) : Nat → List (String × Mark) → Arguments → Except Stop Arguments
  | 0, _, arguments => .ok arguments
  | fuel + 1, items, arguments => do
      let plain := items.takeWhile (fun item => !isOption item.2)
      if plain.length = items.length then
        let (rest, arguments) ← takePositional command items arguments
        pure { arguments with extras := arguments.extras ++ rest.map (·.1) }
      else if plain.isEmpty then
        let (rest, arguments) ← takeOption command items arguments
        readItems command fuel rest arguments
      else
        let (rest, arguments) ← takePositional command items arguments
        if rest.length < items.length then readItems command fuel rest arguments
        else
          let arguments := { arguments with extras := arguments.extras ++ plain.map (·.1) }
          let (rest, arguments) ← takeOption command (items.drop plain.length) arguments
          readItems command fuel rest arguments

def Command.read (command : Command) (texts : List String) : Except Stop Arguments := do
  let items ← command.marksOf texts
  let arguments ← readItems command (items.length + 1) items {}
  match command.positional, arguments.positional with
  | .command name _, none => throw (.fault ("the following arguments are required: " ++ name))
  | _, _ => pure arguments

end Refit.CommandLine
