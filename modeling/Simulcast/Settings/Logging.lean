import Simulcast.Decimal.Text
import Simulcast.Settings.Basic

/-!
# Logging

Logging starts once, at a level that the settings name by a word or by a number. A
level that is none is found out before anything else is tried.
-/

namespace Simulcast

/-- How much is logged. -/
inductive LogLevel where
  | error
  | warn
  | info
  | debug
  | trace
  deriving DecidableEq, Repr

namespace LogLevel

/-- The levels by number, from the quietest. -/
def ofNumber? : Nat → Option LogLevel
  | 1 => some error
  | 2 => some warn
  | 3 => some info
  | 4 => some debug
  | 5 => some trace
  | _ => none

/-- The levels by name. -/
def ofWord? : String → Option LogLevel
  | "error" => some error
  | "warn" => some warn
  | "warning" => some warn
  | "info" => some info
  | "debug" => some debug
  | "trace" => some trace
  | _ => none

/-- The level that a text names, whatever its case. -/
def ofText? (text : String) : Option LogLevel :=
  ofWord? (Reader.lower text) <|> (Decimal.natural? text).bind ofNumber?

end LogLevel

/-- Why logging does not start. -/
inductive LoggingFault where
  | invalidLevel (given : String)
  /-- The file to log to cannot be opened. -/
  | fileUnavailable (path : String)
  /-- Logging has started before. -/
  | alreadyInstalled
  deriving DecidableEq, Repr

namespace LoggingFault

/-- A fault in words. -/
def message : LoggingFault → String
  | invalidLevel given => "invalid log level: " ++ given
  | fileUnavailable _ => "io error"
  | alreadyInstalled => "already installed"

end LoggingFault

namespace LoggingSection

/-- Starts logging, if the file can be opened and it is the first time. -/
def install (l : LoggingSection) (canOpen : String → Bool) (installed : Bool) :
    Except LoggingFault LogLevel := do
  let some level := LogLevel.ofText? l.level | throw (.invalidLevel l.level)
  if let some path := l.filePath then
    unless canOpen path do throw (.fileUnavailable path)
  if installed then throw .alreadyInstalled
  return level

end LoggingSection
end Simulcast
