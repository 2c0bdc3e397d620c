import SavedState.Json.Value
import SavedState.Sink.Basic
import SavedState.TypeSyntax

/-!
What keeps a run from starting. Trouble with single fields or helpers is reported by diagnostics
instead. Of a configuration that is refused, only that it is refused is told: which setting is at
fault, and where it comes from, is left out.
-/

namespace SavedState

inductive RunError where
  /-- Settings that cannot be read, or do not fit. All such errors are this one value, so that two
  configurations that are refused for different reasons are refused alike. -/
  | configuration
  /-- A settings file that is asked for and is not there. -/
  | missingConfiguration (path : String)
  | io (path : String) (source : IoError)
  /-- A manifest that is no JSON, or not of the right shape. -/
  | manifest (path : String) (source : Json.ReadError)
  /-- An element of a manifest whose type cannot be read. -/
  | element (path : String) (source : TypeSyntaxError)

def RunError.message : RunError → String
  | configuration => "invalid configuration"
  | missingConfiguration path => "configuration file " ++ path ++ " not found"
  | io path source => "I/O error at " ++ path ++ ": " ++ source.message
  | manifest path _ => "failed to parse manifest " ++ path
  | element path source => "invalid element in manifest " ++ path ++ ": " ++ source.message

end SavedState
