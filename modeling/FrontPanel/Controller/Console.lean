/-!
# The console

The controller reports what it does as entries of a console, each with its severity.
-/

namespace FrontPanel

set_option autoImplicit false

inductive Severity where
  | trace
  | debug
  | info
  | warn
  | error
  deriving DecidableEq

def Severity.name : Severity → String
  | .trace => "trace"
  | .debug => "debug"
  | .info => "info"
  | .warn => "warn"
  | .error => "error"

structure LogEntry where
  severity : Severity
  text : String
  deriving DecidableEq

namespace LogEntry

def line (e : LogEntry) : String := e.severity.name ++ ": " ++ e.text

def trace (text : String) : LogEntry := ⟨.trace, text⟩

def debug (text : String) : LogEntry := ⟨.debug, text⟩

def info (text : String) : LogEntry := ⟨.info, text⟩

def warn (text : String) : LogEntry := ⟨.warn, text⟩

def error (text : String) : LogEntry := ⟨.error, text⟩

end LogEntry

end FrontPanel
