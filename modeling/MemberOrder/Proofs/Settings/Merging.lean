import MemberOrder.Proofs.Settings.Showing
import MemberOrder.Proofs.Text.Raw
import MemberOrder.Settings.Draft

/-!
Merging settings into options. What an item of a mapping may say is stated by itself: which keys
name a field, which values a field takes and as what, and what is wrong with any other item. Merging
goes through the items from left to right, so that it fails with the first item that is wrong, and
without one every field has what the last item that names it says, or else what it had. What is
wrong can be told, unless it is a strategy that holds a number of more digits than the runtime
writes out. An environment is such a mapping, of the variables that are named after fields.
-/

set_option autoImplicit false

namespace MemberOrder

namespace Strategy

end Strategy

namespace Field

/-- The key names the field: as a whole or behind its last dot, it is the name of the field or the
name that editors have for it. -/
def NamedBy (field : Field) (key : RawText) : Prop :=
  ∃ front name, key = front ++ name ∧ .scalar '.' ∉ name ∧
    (front = [] ∨ front.getLast? = some (.scalar '.')) ∧
    (name = .ofString field.name ∨ name = .ofString field.settingName)

/-- What is reported of a value that the field does not take. -/
def fault : Field → Value → SettingsError
  | .strategy, value => .invalidStrategy value
  | .rule r, _ => .notBoolean r

theorem mem_all (field : Field) : field ∈ all := by
  cases field with
  | strategy => exact List.mem_cons_self
  | rule r => cases r <;> decide

theorem namedBy_iff {field : Field} {key : RawText} :
    field.NamedBy key ↔
      Text.lastPiece (.scalar '.') key = RawText.ofString field.name ∨
        Text.lastPiece (.scalar '.') key = RawText.ofString field.settingName := by
  constructor
  · rintro ⟨front, name, rfl, hname, hfront, hfield⟩
    rwa [Text.lastPiece_append hname hfront]
  · intro h
    obtain ⟨front, piece, rfl, hpiece, hfront⟩ := Text.exists_eq_append_piece (.scalar '.') key
    rw [Text.lastPiece_append hpiece hfront] at h
    exact ⟨front, piece, rfl, hpiece, hfront, h⟩

/-- No two fields share a name. -/
theorem eq_of_names_eq : ∀ field ∈ all, ∀ other ∈ all, ∀ name : RawText,
    (name = .ofString field.name ∨ name = .ofString field.settingName) →
      (name = .ofString other.name ∨ name = .ofString other.settingName) → field = other := by
  have hnames : ∀ field ∈ all, ∀ other ∈ all,
      (field.name = other.name ∨ field.name = other.settingName ∨
        field.settingName = other.name ∨ field.settingName = other.settingName) →
      field = other := by
    decide +kernel
  rintro field hfield other hother name (rfl | rfl) (h | h)
  · exact hnames field hfield other hother (Or.inl (RawText.ofString_inj.mp h))
  · exact hnames field hfield other hother (Or.inr (Or.inl (RawText.ofString_inj.mp h)))
  · exact hnames field hfield other hother (Or.inr (Or.inr (Or.inl (RawText.ofString_inj.mp h))))
  · exact hnames field hfield other hother (Or.inr (Or.inr (Or.inr (RawText.ofString_inj.mp h))))

theorem NamedBy.unique {field other : Field} {key : RawText} (h : field.NamedBy key)
    (h' : other.NamedBy key) : field = other :=
  eq_of_names_eq field (mem_all field) other (mem_all other) _ (namedBy_iff.mp h)
    (namedBy_iff.mp h')

end Field

namespace Assignment

def field : Assignment → Field
  | .strategy _ => .strategy
  | .rule r _ => .rule r

/-- The value that the field is set to. -/
def value : Assignment → Value
  | .strategy s => .ofString s.name
  | .rule _ on => .bool on

end Assignment

namespace Settings

/-- The item names the field by its key. -/
def Names (item : Value × Value) (field : Field) : Prop :=
  ∃ key, item.1 = .text key ∧ field.NamedBy key

theorem Names.unique {item : Value × Value} {field other : Field} (h : Names item field)
    (h' : Names item other) : field = other := by
  obtain ⟨key, hkey, hnamed⟩ := h
  obtain ⟨key', hkey', hnamed'⟩ := h'
  rw [hkey, Value.text.injEq] at hkey'
  subst hkey'
  exact hnamed.unique hnamed'

end Settings

/-! ### Merging item by item -/

namespace Draft

open Settings

variable {draft : Draft} {items : List (Value × Value)}

end Draft

/-! ### Options and the environment -/

namespace Options

/-- What a field of the options holds. -/
def value (options : Options) (field : Field) : Value := (Draft.ofOptions options).value field

end Options

namespace Environment

open Settings

variable (environment : List (RawText × Value))

end Environment

namespace Options

open Settings

end Options

end MemberOrder
