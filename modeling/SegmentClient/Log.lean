namespace SegmentClient

inductive LogLine.Level
  | info
  | warn
  | error
deriving DecidableEq, Repr

def LogLine.Level.name : LogLine.Level → String
  | info => "INFO"
  | warn => "WARN"
  | error => "ERROR"

structure LogLine where
  level : LogLine.Level
  message : String
deriving DecidableEq, Repr

def LogLine.text (line : LogLine) : String := s!"{line.level.name} {line.message}"

end SegmentClient
