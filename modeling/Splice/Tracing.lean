import Splice.Text.Blank

/-!
# The tracing switch

Whether the plans of built scopes are logged is decided by a flag or else by a textual setting.
-/

namespace Splice.Tracing

/-- The settings that switch tracing off, in lower case. -/
def offWords : List String := ["", "0", "false", "off", "no"]

/-- Whether a setting switches tracing on: any word does that is not one of the off words, blanks
around it and the case of ASCII letters aside. -/
def isOn (setting : String) : Bool :=
  String.ofList ((Text.trim setting.toList).map Char.toLower) ∉ offWords

/-- Whether to trace: as the flag says if there is one, else as the setting says, else not. -/
def isEnabled (flag : Option Bool) (setting : Option String) : Bool :=
  (flag.or (setting.map isOn)).getD false

theorem isEnabled_some_flag (b : Bool) (setting : Option String) :
    isEnabled (some b) setting = b := rfl

end Splice.Tracing
