import MemberOrder.Order.Options
import MemberOrder.Settings.Value
import MemberOrder.Text.Case

/-!
Settings: options given as an ordered mapping of names to values. Each item that is valid assigns
one field; the items are taken from left to right, and the first invalid one is reported. A name may
have a dotted part before it and may be written in camel case.
-/

set_option autoImplicit false

namespace MemberOrder

/-- A field of the options: the strategy, or one of the rules. -/
inductive Field
  | strategy
  | rule (r : Rule)
deriving DecidableEq

namespace Field

def all : List Field := .strategy :: Rule.all.map .rule

def name : Field → String
  | .strategy => "sorting_strategy"
  | .rule r => r.name

/-- The name of the field in the settings of an editor. -/
def settingName : Field → String
  | .strategy => "sortingStrategy"
  | .rule .workingList => "applyWorkingListHeuristics"
  | .rule .callersFirst => "respectBeforeAfterRelation"
  | .rule .clusterOverloads => "clusterOverloadedMethods"
  | .rule .clusterAccessors => "clusterGetterSetter"
  | .rule .separateAccess => "separateByAccessLevel"
  | .rule .separateConstructors => "separateConstructors"
  | .rule .lexicalOrder => "applyLexicalOrdering"

def ofName? (name : RawText) : Option Field :=
  all.find? fun field => RawText.ofString field.name == name

/-- The field that a key names, by the part after its last dot. -/
def ofKey? (key : RawText) : Option Field :=
  all.find? fun field =>
    [RawText.ofString field.name, RawText.ofString field.settingName].contains
      (Text.lastPiece (.scalar '.') key)

end Field

/-- What is wrong with settings. -/
inductive SettingsError
  | notMapping
  | keyNotText
  | unknownOption (key : RawText)
  | invalidStrategy (value : Value)
  | notBoolean (rule : Rule)

namespace SettingsError

/-- What users are told. There is nothing to tell where a value cannot be shown: showing it fails in
the place of the error itself. -/
def message? (limit : DigitLimit) : SettingsError → Option RawText
  | .notMapping => some (.ofString "options must be an object of option names to values.")
  | .keyNotText => some (.ofString "Option names must be strings.")
  | .unknownOption key =>
    some (.ofString "Unknown sorting option: " ++ key
      ++ .ofString (". Expected one of: " ++ ", ".intercalate (Field.all.map Field.name) ++ "."))
  | .invalidStrategy value =>
    (value.shown? limit).map fun shown =>
      .ofString "Invalid sorting_strategy value: " ++ shown
        ++ .ofString (". Expected "
          ++ " or ".intercalate (Strategy.all.map fun s => "'" ++ s.name ++ "'") ++ ".")
  | .notBoolean rule => some (.ofString (rule.name ++ " must be a boolean."))

/-- Is the error one that users are told of? -/
def isReported (limit : DigitLimit) (e : SettingsError) : Bool := (e.message? limit).isSome

/-- What there is to read of the error, be it told or not. -/
def message (limit : DigitLimit) (e : SettingsError) : RawText :=
  (e.message? limit).getD (.ofString limit.message)

end SettingsError

/-- A valid item: a field and the value for it. -/
inductive Assignment
  | strategy (s : Strategy)
  | rule (r : Rule) (on : Bool)
deriving DecidableEq

namespace Assignment

/-- Words are read in any case and with white space around them. -/
def wordOf (t : Text) : String := String.ofList (Text.toLower (Text.trim t))

/-- The word that a raw text is. No word has a surrogate in it. -/
def wordOf? (t : RawText) : Option String := t.toText?.map wordOf

def trueWords : List String := ["1", "true", "yes", "on"]

def falseWords : List String := ["0", "false", "no", "off", ""]

def strategyOf? : Value → Option Strategy
  | .text t => (wordOf? t).bind Strategy.ofName?
  | _ => none

/-- The truth value that a value stands for. -/
def flagOf? : Value → Option Bool
  | .bool b => some b
  | .text t =>
    (wordOf? t).bind fun word =>
      if trueWords.contains word then some true
      else if falseWords.contains word then some false
      else none
  | _ => none

def ofField (field : Field) (value : Value) : Except SettingsError Assignment :=
  match field with
  | .strategy =>
    match strategyOf? value with
    | some s => .ok (.strategy s)
    | none => .error (.invalidStrategy value)
  | .rule r =>
    match flagOf? value with
    | some on => .ok (.rule r on)
    | none => .error (.notBoolean r)

def ofItem : Value × Value → Except SettingsError Assignment
  | (.text key, value) =>
    match Field.ofKey? key with
    | some field => ofField field value
    | none => .error (.unknownOption key)
  | _ => .error .keyNotText

end Assignment

namespace Options

def assign (options : Options) : Assignment → Options
  | .strategy s => { options with strategy := s }
  | .rule r on => options.switch r on

/-- The options with the items of a mapping merged in, from left to right. -/
def merge (options : Options) (items : List (Value × Value)) : Except SettingsError Options :=
  (items.mapM Assignment.ofItem).map fun assignments => assignments.foldl assign options

/-- The same for a value that ought to be a mapping; an absent one changes nothing. -/
def mergeValue (options : Options) : Value → Except SettingsError Options
  | .null => .ok options
  | .mapping items => options.merge items
  | _ => .error .notMapping

end Options

namespace Environment

/-- The environment variable that sets an option. -/
def variableName (name : Text) : Text := "METHODSORTER_".toList ++ Text.toUpper name

/-- The items that environment variables set, in the order of the fields. -/
def items (environment : List (RawText × Value)) : List (Value × Value) :=
  Field.all.filterMap fun field =>
    (environment.lookup (.ofText (variableName field.name.toList))).map fun value =>
      (.ofString field.name, value)

end Environment

namespace Options

def mergeEnvironment (options : Options) (environment : List (RawText × Value)) :
    Except SettingsError Options :=
  options.merge (Environment.items environment)

end Options

end MemberOrder
