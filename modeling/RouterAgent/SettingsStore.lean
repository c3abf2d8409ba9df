import RouterAgent.World

/-!
The settings store of the firmware, which a command reads.
-/

namespace RouterAgent.SettingsStore

open RouterAgent.Text

def program : String := "nvram"

/-- The text that a command printed, without the blanks around it. -/
def printed : Option String → Except Fault String
  | some s => .ok (String.ofList (trim s.toList))
  | none => .error (.misfit (.lacks "NoneType" "strip"))

def setting (program line : String) : CommandResult → Except Fault String
  | .refused .missing => .error (.store (.absent program))
  | .refused why => .error (.refused why program)
  | .timedOut => .error (.store (.slow line))
  | .ran output errors code =>
    if code = 0 then printed output
    else match printed errors with
      | .ok why => .error (.store (.failed line why))
      | .error fault => .error fault

def getBy (w : World) (program key : String) : Except Fault String × World :=
  let line := s!"{program} get {key}"
  let (result, w) := w.run line
  (setting program line result, w)

def get (w : World) (key : String) : Except Fault String × World := getBy w program key

end RouterAgent.SettingsStore
