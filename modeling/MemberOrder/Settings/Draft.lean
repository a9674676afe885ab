import MemberOrder.Settings.Basic

/-!
Drafts: options whose fields may hold values of any kind, because changes are taken over without
being checked. Merging a mapping checks the items it merges and leaves the other fields alone.
-/

set_option autoImplicit false

namespace MemberOrder

/-- A value for every field. -/
structure Draft where
  value : Field → Value

namespace Draft

def ofOptions (options : Options) : Draft :=
  ⟨fun
    | .strategy => .ofString options.strategy.name
    | .rule r => .bool (options.applies r)⟩

def default : Draft := ofOptions Options.default

def set (draft : Draft) (field : Field) (value : Value) : Draft :=
  ⟨fun other => if other = field then value else draft.value other⟩

def assign (draft : Draft) : Assignment → Draft
  | .strategy s => draft.set .strategy (.ofString s.name)
  | .rule r on => draft.set (.rule r) (.bool on)

def merge (draft : Draft) (items : List (Value × Value)) : Except SettingsError Draft :=
  (items.mapM Assignment.ofItem).map fun assignments => assignments.foldl assign draft

def mergeValue (draft : Draft) : Value → Except SettingsError Draft
  | .null => .ok draft
  | .mapping items => draft.merge items
  | _ => .error .notMapping

/-- Why changes cannot be taken over: a name that no field has, or that of the draft itself. -/
inductive ChangeError
  | unknown (name : RawText)
  | reserved
deriving DecidableEq

/-- The name by which a draft is known to its own operations. -/
def reservedName : String := "self"

def ChangeError.message : ChangeError → RawText
  | .unknown name =>
    .ofString "SortingOptions.__init__() got an unexpected keyword argument '" ++ name
      ++ .ofString "'"
  | .reserved =>
    .ofString ("SortingOptions.with_changes() got multiple values for argument '" ++ reservedName
      ++ "'")

/-- Takes over changes unchecked. The first name that no field has is reported. -/
def change (draft : Draft) (changes : List (RawText × Value)) : Except ChangeError Draft :=
  if changes.any (·.1 == .ofString reservedName) then .error .reserved
  else
    match changes.find? fun (name, _) => (Field.ofName? name).isNone with
    | some (name, _) => .error (.unknown name)
    | none =>
      .ok (changes.foldl
        (fun draft (name, value) =>
          match Field.ofName? name with
          | some field => draft.set field value
          | none => draft)
        draft)

/-- Do chains of calls order methods? -/
def followsChains (draft : Draft) : Bool :=
  match draft.value .strategy with
  | .text t => t == .ofString Strategy.depthFirst.name
  | _ => false

def isDefault (draft : Draft) : Bool :=
  draft.followsChains
    && Rule.all.all fun r => (draft.value (.rule r)).isFlag (Options.default.applies r)

/-- The one-line description of a draft, where all its values can be shown. -/
def description? (limit : DigitLimit) (draft : Draft) : Option Text :=
  (Field.all.mapM fun field =>
    ((draft.value field).literal? limit).map (field.name.toList ++ '=' :: ·)).map fun fields =>
      "SortingOptions(".toList ++ Text.joined ", ".toList fields ++ [')']

end Draft

end MemberOrder
