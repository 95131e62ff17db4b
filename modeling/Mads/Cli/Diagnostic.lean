import Mathlib.Data.List.Basic

/-!
# Errors of the command line
-/

namespace Mads

/-- A command-line error; of an underlying cause only the text is kept. -/
structure CliError where
  code : String
  title : String
  message : String
  subject : Option String := none
  suggestions : List String := []
  source : Option String := none
  deriving DecidableEq, Repr

/-- `Display`. -/
def CliError.display (error : CliError) : String :=
  "error[" ++ error.code ++ "]: " ++ error.title ++
    (match error.subject with
      | none => ""
      | some subject => "\n  = subject: " ++ subject) ++
    "\n  = " ++ error.message ++ String.join (error.suggestions.map ("\n  help: " ++ ·))

end Mads
