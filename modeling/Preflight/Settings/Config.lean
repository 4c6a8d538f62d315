import Preflight.Report.Theme
import Preflight.Settings.Toml

/-!
This module contains the settings of a user and their reading from a file. Settings that a file does
not mention keep their defaults, a file that mentions anything else is refused.
-/

namespace Preflight

namespace Setting

def color? : Setting → Option Color
  | text t => (Color.parse t).toOption
  | _ => none

def flag? : Setting → Option Bool
  | flag b => some b
  | _ => none

def natural? (limit : Nat) : Setting → Option Nat
  | integer (.ofNat n) => if n ≤ limit then some n else none
  | _ => none

structure Field (α : Type) where
  name : String
  set : α → Setting → Option α

def applyMembers {α : Type} (fields : List (Field α)) (group : α) :
    List (Text × Setting) → Option α
  | [] => some group
  | (name, value) :: members => do
    let field ← fields.find? fun field => field.name.toList = name
    applyMembers fields (← field.set group value) members

def applyValues {α : Type} (group : α) : List (Field α) → List Setting → Option α
  | field :: fields, value :: values => do
    applyValues (← field.set group value) fields values
  -- Values that are left over mean nothing.
  | _, _ => some group

def applyGroup {α : Type} (fields : List (Field α)) (group : α) : Setting → Option α
  | table members => applyMembers fields group members
  | list values => applyValues group fields values
  | _ => none

end Setting

namespace Theme

def fields : List (Setting.Field Theme) := [
    ⟨"error_color", fun theme v => v.color?.map ({ theme with errorColor := · })⟩,
    ⟨"warning_color", fun theme v => v.color?.map ({ theme with warningColor := · })⟩,
    ⟨"note_color", fun theme v => v.color?.map ({ theme with noteColor := · })⟩,
    ⟨"line_color", fun theme v => v.color?.map ({ theme with lineColor := · })⟩,
    ⟨"alt_line_color", fun theme v => v.color?.map ({ theme with altLineColor := · })⟩,
    ⟨"line_number_color", fun theme v => v.color?.map ({ theme with lineNumberColor := · })⟩,
    ⟨"separator_color", fun theme v => v.color?.map ({ theme with separatorColor := · })⟩,
    ⟨"underline_color", fun theme v => v.color?.map ({ theme with underlineColor := · })⟩,
    ⟨"error_code_color", fun theme v => v.color?.map ({ theme with errorCodeColor := · })⟩,
    ⟨"code_color", fun theme v => v.color?.map ({ theme with codeColor := · })⟩,
    ⟨"domain_color", fun theme v => v.color?.map ({ theme with domainColor := · })⟩,
    ⟨"source_color", fun theme v => v.color?.map ({ theme with sourceColor := · })⟩,
    ⟨"context_lines", fun theme v =>
      (v.natural? 0xFFFFFFFF).map ({ theme with contextLines := · })⟩,
    ⟨"right_padding", fun theme v =>
      (v.natural? 0xFFFFFFFFFFFFFFFF).map ({ theme with rightPadding := · })⟩
  ]

def ofSetting (setting : Setting) : Option Theme := setting.applyGroup fields default

end Theme

structure Config where
  theme : Theme
  echo : Bool
  tagColor : Color
  deriving DecidableEq, Repr

namespace Config

def default : Config := ⟨Theme.default, true, Color.rgb 38 139 210⟩

def promptFields : List (Setting.Field Config) := [
    ⟨"echo", fun config v => v.flag?.map ({ config with echo := · })⟩,
    ⟨"tag_color", fun config v => v.color?.map ({ config with tagColor := · })⟩
  ]

def fields : List (Setting.Field Config) := [
    ⟨"theme", fun config v => (Theme.ofSetting v).map ({ config with theme := · })⟩,
    ⟨"prompt", fun config v => v.applyGroup promptFields config⟩
  ]

def parse (t : Text) : Option Config := do
  Setting.applyMembers fields default (← Toml.read t)

end Config

end Preflight
