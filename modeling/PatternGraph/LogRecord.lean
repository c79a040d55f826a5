/-
This file defines the records that operations leave for the log. An operation never writes a log
itself: it returns the records it gave rise to, oldest first, next to its result, and a failing
operation returns those of the work it did before it failed.
-/

namespace PatternGraph

inductive LogLevel
  | trace
  | debug
  | warn
  deriving DecidableEq

def LogLevel.name : LogLevel → String
  | trace => "TRACE"
  | debug => "DEBUG"
  | warn => "WARN"

structure LogRecord where
  level : LogLevel
  message : String
  deriving DecidableEq

end PatternGraph
